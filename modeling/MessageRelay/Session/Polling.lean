import MessageRelay.Library.History
import MessageRelay.Session.Rounds

/-! The polling transport's Worker on one sid: each packet of a POST, the GET's refresh, the KV copy of the auth state,
and the call on the session object's rounds. A signed General is forwarded for the identity that signed it. A plain
event is forwarded for whatever identity the copy that KV answers with names, and that copy may be an old one. -/

namespace MessageRelay.Session
open MessageRelay.Library MessageRelay.Lane

/-- The session object of the sid, every auth state written to KV for the sid, whether the sid was ever marked closed
there, and whether the POST at hand passed the closed check. -/
structure Worker where
  session : Engine
  kvAuth : List SessionAuthState
  kvClosed : Bool
  admitted : Bool

def Worker.start : Worker :=
  ⟨⟨none, none, none, []⟩, [], false, false⟩

/-- KV reads are eventually consistent and its entries expire, so a read finds any state written so far, or none. -/
def Worker.loadAuthState (w : Worker) (read : Option Nat) : SessionAuthState :=
  (read.bind (w.kvAuth[·]?)).getD .unauthenticated

inductive WorkerEvent where
  /-- The session object verified a General and selected this round. -/
  | general (raw : AuthArg) (round : SessionAuthState)
  /-- The session object has handled an auth message, and this is its selected round. -/
  | selected (round : SessionAuthState)
  | forwarded (identity eventName : String)

/-- What a packet's handler meets: the server's key, the nonce it is given, the session object's answer, what the read
of KV finds, and whether each write goes through. -/
structure PollingWeather where
  keyed : Bool
  createdNonce : Except String String
  reached : Bool
  answered : Bool
  ambient : Ambient
  authRead : Option Nat
  authWritten : Bool
  /-- The refresh of the entries is due and goes through. -/
  touched : Bool
  closedWritten : Bool

def ClientEvent.name : ClientEvent → String
  | .unnamed => ""
  | .authMessage _ => "authMessage"
  | .sessionAttach _ => "sessionAttach"
  | .sessionMessage _ => "sessionMessage"
  | .other name => name

/-- Named, and no auth message. -/
def ClientEvent.isPlain : ClientEvent → Bool
  | .unnamed | .authMessage _ => false
  | .sessionAttach _ | .sessionMessage _ | .other _ => true

section Handlers
variable (platform : Platform) (sid : String) (weather : PollingWeather)

def Worker.markClosed (w : Worker) : Worker := { w with kvClosed := w.kvClosed || weather.closedWritten }

def Worker.saveAuthState (w : Worker) (written : Bool) (state : SessionAuthState) : Worker :=
  { w with kvAuth := if written then w.kvAuth ++ [state] else w.kvAuth }

/-- The refresh writes the state back if it is due. -/
def Worker.touchSession (w : Worker) (due : Bool) (auth : SessionAuthState) : Worker := w.saveAuthState due auth

/-! A write to KV leaves the session object and the POST at hand alone. -/

section
variable (w : Worker) (written : Bool) (state : SessionAuthState)

@[simp] theorem Worker.saveAuthState_session : (w.saveAuthState written state).session = w.session := rfl

@[simp] theorem Worker.saveAuthState_admitted : (w.saveAuthState written state).admitted = w.admitted := rfl

@[simp] theorem Worker.touchSession_session : (w.touchSession written state).session = w.session := rfl

@[simp] theorem Worker.touchSession_admitted : (w.touchSession written state).admitted = w.admitted := rfl

end

/-- The round the Worker completed itself, to be handed over. -/
def completedRound (raw : AuthArg) : Option AuthOutcome → Except String (Option SessionAuthState)
  | some (.outbound messages) =>
    match messages.head? with
    | none => .error "missing InitialResponse"
    | some out => (sessionFromInitialResponse raw out).map some
  | _ => .ok none

/-- The call on the session object, with what it verified and selected and what the Worker hears of it. -/
def authRoundInDo (raw : AuthArg) (completed : Option SessionAuthState) (e : Engine) :
    Engine × List WorkerEvent × Option (AuthOutcome × SessionAuthState) :=
  if !weather.reached then (e, [], none)
  else
    let a := weather.ambient
    let (e, outcome) := ((e.ensureHeartbeat platform a).ensureInner sid).authRound platform raw completed a
    let current := (e.rounds.map AuthRoundState.current).getD .unauthenticated
    let verified := match outcome with
      | .authenticatedGeneral _ => [.general raw current, .selected current]
      | _ => [.selected current]
    let heard := weather.answered && a.roundsRead && a.roundsWritten && completed.all SessionAuthState.isAuthenticated
    (e, verified, if heard then some (outcome, current) else none)

/-- A verified General's event goes to the hub of the round's identity. -/
def forwardGeneral (current : SessionAuthState) (payload : Bytes) : List WorkerEvent :=
  let name := (decodeEventPayload platform payload).1
  if name = "authenticated" then []
  else
    match current.verifiedIdentityKey with
    | none => []
    | some identity => [.forwarded identity name]

def handleAuthmessage (raw : AuthArg) (w : Worker) : Worker × List WorkerEvent :=
  if !weather.keyed then (w, [])
  else
    let own := if raw.messageType = some "initialRequest" then
        some (handleAuthMessage platform.wallet raw .unauthenticated weather.createdNonce)
      else none
    match completedRound raw own with
    | .error _ => (w.markClosed weather, [])
    | .ok completed =>
      match authRoundInDo platform sid weather raw completed w.session with
      | (session, verified, none) => ({ w with session }.markClosed weather, verified)
      | (session, verified, some (remote, current)) =>
        match own.getD remote with
        | .authenticatedGeneral payload =>
          ((({ w with session }.saveAuthState weather.authWritten current).touchSession weather.touched current),
            verified ++ forwardGeneral platform current payload)
        | .outbound _ | .quiet | .error _ =>
          ({ w with session }.saveAuthState weather.authWritten current, verified)

/-- A plain event goes to the hub of the identity that the read of KV finds. -/
def forwardAndEnqueue (eventName : String) (w : Worker) : Worker × List WorkerEvent :=
  let auth := w.loadAuthState weather.authRead
  match auth.verifiedIdentityKey with
  | none => (w, [])
  | some identity => (w.touchSession weather.touched auth, [.forwarded identity eventName])

def handleSocketioEvent (event : ClientEvent) (w : Worker) : Worker × List WorkerEvent :=
  match event with
  | .unnamed => (w, [])
  | .authMessage raw => handleAuthmessage platform sid weather raw w
  | .sessionAttach _ | .sessionMessage _ | .other _ => forwardAndEnqueue weather event.name w

def handleSocketioInWorker (packet : SocketIoPacket) (w : Worker) : Worker × List WorkerEvent :=
  match packet with
  | .connect _ | .ack | .connectError => (w, [])
  | .disconnect => (w.markClosed weather, [])
  | .event event => handleSocketioEvent platform sid weather event w

def handlePollingPacket (packet : EngineIoPacket) (w : Worker) : Worker × List WorkerEvent :=
  match packet with
  | .opened | .ping | .pong | .upgrade | .noop | .message none => (w, [])
  | .close => (w.markClosed weather, [])
  | .message (some packet) => handleSocketioInWorker platform sid weather packet w

end Handlers

/-- The GET refreshes an authenticated session's entries with the state it reads. It writes a state that is in KV
already, so what runs between its read and its write makes no difference. -/
def handlePollingGet (closedRead : Bool) (authRead : Option Nat) (due : Bool) (w : Worker) : Worker :=
  if closedRead && w.kvClosed then w
  else
    let auth := w.loadAuthState authRead
    if auth.isAuthenticated then w.touchSession due auth else w

/-- A POST begins, its packets follow one by one. GETs are polled, and the session object is evicted, at any time. -/
inductive PollingInput where
  | post (closedRead : Bool)
  | packet (packet : EngineIoPacket) (weather : PollingWeather)
  | poll (closedRead : Bool) (authRead : Option Nat) (due : Bool)
  | evicted

def pollingStep (platform : Platform) (sid : String) (w : Worker) : PollingInput → Worker × List WorkerEvent
  | .post closedRead => ({ w with admitted := !(closedRead && w.kvClosed) }, [])
  | .packet packet weather => if w.admitted then handlePollingPacket platform sid weather packet w else (w, [])
  | .poll closedRead authRead due => (handlePollingGet closedRead authRead due w, [])
  | .evicted => ({ w with session := w.session.evict }, [])

def pollingMachine (platform : Platform) (sid : String) : Machine Worker PollingInput WorkerEvent :=
  ⟨pollingStep platform sid⟩

section Proof
variable (platform : Platform)

/-- A General signed by the identity was verified under a round of that identity. -/
def GeneralSeen (log : List WorkerEvent) (identity : String) : Prop :=
  ∃ raw round, .general raw round ∈ log ∧ SignedBy platform.wallet raw round identity

/-- Every forward comes after a General signed by its identity. -/
def ForwardsProven (log : List WorkerEvent) : Prop :=
  Preceded (fun before event => ∀ identity name, event = .forwarded identity name → GeneralSeen platform before identity)
    log

/-- The state was the session object's selected round once some General had been verified. -/
def SelectedSince (log : List WorkerEvent) (state : SessionAuthState) : Prop :=
  ∃ before after raw round, log = before ++ after ∧ .general raw round ∈ before ∧ .selected state ∈ after

/-- The condition on one step: an authenticated state that a plain event reads from KV is a round selected since a
General. -/
def SpeaksSince (c : Config Worker WorkerEvent) : PollingInput → Prop
  | .packet (.message (some (.event event))) weather =>
    event.isPlain = true → c.state.admitted = true → (c.state.loadAuthState weather.authRead).isAuthenticated = true →
      SelectedSince c.log (c.state.loadAuthState weather.authRead)
  | _ => True

/-- The invariant. Once a General is verified the selected round is one that was proven. What KV holds plays no part. -/
structure Polled (c : Config Worker WorkerEvent) : Prop where
  selected : ∀ raw round, .general raw round ∈ c.log → ∃ r identity, c.state.session.rounds = some r ∧
    r.current.verifiedIdentityKey = some identity ∧ GeneralSeen platform c.log identity
  since : ∀ state identity, SelectedSince c.log state → state.verifiedIdentityKey = some identity →
    GeneralSeen platform c.log identity
  proven : ForwardsProven platform c.log

variable {platform}

theorem GeneralSeen.later {log : List WorkerEvent} {identity : String} (seen : GeneralSeen platform log identity)
    (more : List WorkerEvent) : GeneralSeen platform (log ++ more) identity := by
  obtain ⟨raw, round, member, signed⟩ := seen
  exact ⟨raw, round, List.mem_append_left _ member, signed⟩

/-- The round a session object has selected. -/
def Engine.selectedRound (e : Engine) : SessionAuthState := (e.rounds.map AuthRoundState.current).getD .unauthenticated

theorem Engine.selectedRound_of_rounds {e : Engine} {r : AuthRoundState} (held : e.rounds = some r) :
    e.selectedRound = r.current := by
  simp [Engine.selectedRound, held]

theorem rounds_authRoundInDo (sid : String) (weather : PollingWeather) (raw : AuthArg)
    (completed : Option SessionAuthState) (e : Engine) :
    let out := authRoundInDo platform sid weather raw completed e
    (∃ r identity, out.1.rounds = some r ∧ r.current.verifiedIdentityKey = some identity ∧
      SignedBy platform.wallet raw r.current identity ∧ out.2.1 = [.general raw r.current, .selected r.current]) ∨
    ((out.2.1 = [] ∨ out.2.1 = [.selected out.1.selectedRound]) ∧
      (∀ r, e.rounds = some r → r.current.isAuthenticated = true →
        ∃ r', out.1.rounds = some r' ∧ r'.current = r.current) ∧
      ∀ outcome current payload, out.2.2 = some (outcome, current) → outcome ≠ .authenticatedGeneral payload) := by
  intro out
  by_cases reached : weather.reached = true
  swap
  · simp only [out, authRoundInDo, reached]
    exact .inr ⟨.inl rfl, fun r held _ => ⟨r, held, rfl⟩, fun _ _ _ no => (by cases no)⟩
  have before : ((e.ensureHeartbeat platform weather.ambient).ensureInner sid).rounds = e.rounds := by
    rw [rounds_ensureInner, rounds_ensureHeartbeat]
  have called := @authRound_rounds platform ((e.ensureHeartbeat platform weather.ambient).ensureInner sid) raw completed
    weather.ambient
  simp only [out, authRoundInDo, reached, Bool.not_true, Bool.false_eq_true, if_false]
  generalize ((e.ensureHeartbeat platform weather.ambient).ensureInner sid).authRound platform raw completed
    weather.ambient = answer at called ⊢
  obtain ⟨e', outcome⟩ := answer
  rcases called with ⟨payload, verified, r, identity, held, proves, signed, -⟩ | ⟨other, selected⟩
  · simp only at verified held
    subst verified
    exact .inl ⟨r, identity, held, proves, signed, by simp [held]⟩
  · refine .inr ⟨.inr ?_, fun r held => selected r (before.trans held), fun outcome' current payload heard no => ?_⟩
    · cases outcome with
      | authenticatedGeneral payload => exact absurd rfl (other payload)
      | outbound | quiet | error => rfl
    · split at heard
      · cases heard
        exact other payload no
      · cases heard

/-- What the session object answers is its selected round. -/
theorem current_authRoundInDo {sid : String} {weather : PollingWeather} {raw : AuthArg}
    {completed : Option SessionAuthState} {e : Engine} {outcome : AuthOutcome} {current : SessionAuthState}
    (heard : (authRoundInDo platform sid weather raw completed e).2.2 = some (outcome, current)) :
    current = (authRoundInDo platform sid weather raw completed e).1.selectedRound := by
  unfold authRoundInDo at heard ⊢
  split at heard
  · cases heard
  · rename_i reached
    simp only [if_neg reached] at heard ⊢
    split at heard
    · cases heard
      rfl
    · cases heard

/-! The steps of a handler. -/

theorem SelectedSince.general {log : List WorkerEvent} {state : SessionAuthState} (since : SelectedSince log state) :
    ∃ raw round, .general raw round ∈ log := by
  obtain ⟨before, after, raw, round, rfl, member, -⟩ := since
  exact ⟨raw, round, List.mem_append_left _ member⟩

/-- Where a log grows, what was selected since a General was so before, or the new event is the selection. -/
theorem SelectedSince.snoc {log : List WorkerEvent} {event : WorkerEvent} {state : SessionAuthState}
    (since : SelectedSince (log ++ [event]) state) :
    SelectedSince log state ∨ event = .selected state ∧ ∃ raw round, .general raw round ∈ log := by
  obtain ⟨before, after, raw, round, parts, member, there⟩ := since
  cases later : after using List.reverseRecOn with
  | nil =>
    subst later
    cases there
  | append_singleton rest final =>
    subst later
    rw [← List.append_assoc] at parts
    obtain ⟨same, last⟩ := List.append_inj' parts rfl
    cases last
    rcases List.mem_append.mp there with early | late
    · exact .inl ⟨before, rest, raw, round, same, member, early⟩
    · refine .inr ⟨(List.mem_singleton.mp late).symm, raw, round, ?_⟩
      rw [same]
      exact List.mem_append_left _ member

/-- Nothing is verified without a round, so a General heard was verified by the session object. -/
theorem general_of_remote {raw : AuthArg} {created : Except String String} {remote : AuthOutcome} {payload : Bytes}
    (outcome : (if raw.messageType = some "initialRequest" then
      some (handleAuthMessage platform.wallet raw .unauthenticated created) else none).getD remote =
        .authenticatedGeneral payload) : remote = .authenticatedGeneral payload := by
  split at outcome
  · rw [Option.getD_some] at outcome
    obtain ⟨identity, no, -⟩ := handleAuthMessage_general outcome
    cases no
  · exact outcome

theorem isAuthenticated_of_named {state : SessionAuthState} {identity : String}
    (named : state.verifiedIdentityKey = some identity) : state.isAuthenticated = true := by
  cases state with
  | unauthenticated => cases named
  | authenticated => rfl

section Steps
variable {w : Worker} {log : List WorkerEvent} (polled : Polled platform ⟨w, log⟩)
include polled

/-- The session object verified a General and selected its round. -/
theorem Polled.verified {e : Engine} {raw : AuthArg} {r : AuthRoundState} {identity : String}
    (held : e.rounds = some r) (proves : r.current.verifiedIdentityKey = some identity)
    (signed : SignedBy platform.wallet raw r.current identity) :
    Polled platform ⟨{ w with session := e }, log ++ [.general raw r.current]⟩ := by
  have seen : GeneralSeen platform (log ++ [.general raw r.current]) identity :=
    ⟨raw, r.current, List.mem_append_right _ (List.mem_singleton.mpr rfl), signed⟩
  refine ⟨fun _ _ _ => ⟨r, identity, held, proves, seen⟩, fun state identity' since named => ?_,
    polled.proven.snoc (fun _ _ no => by cases no)⟩
  rcases since.snoc with before | ⟨no, -⟩
  · exact (polled.since state identity' before named).later _
  · cases no

/-- The session object keeps its round if it has one selected. -/
theorem Polled.unmoved {e : Engine} (kept : ∀ r, w.session.rounds = some r → r.current.isAuthenticated = true →
      ∃ r', e.rounds = some r' ∧ r'.current = r.current) :
    Polled platform ⟨{ w with session := e }, log⟩ := by
  refine ⟨fun raw round member => ?_, polled.since, polled.proven⟩
  obtain ⟨r, identity, held, proves, seen⟩ := polled.selected raw round member
  obtain ⟨r', held', same⟩ := kept r held (isAuthenticated_of_named proves)
  exact ⟨r', identity, held', same ▸ proves, seen⟩

/-- The session object has handled an auth message. Its selected round is one proven, if any General was verified. -/
theorem Polled.select : Polled platform ⟨w, log ++ [.selected w.session.selectedRound]⟩ := by
  refine ⟨fun raw round member => ?_, fun state identity since named => ?_,
    polled.proven.snoc (fun _ _ no => by cases no)⟩
  · have before : .general raw round ∈ log := by simpa using member
    obtain ⟨r, identity, held, proves, seen⟩ := polled.selected raw round before
    exact ⟨r, identity, held, proves, seen.later _⟩
  · rcases since.snoc with before | ⟨now, raw, round, before⟩
    · exact (polled.since state identity before named).later _
    · obtain ⟨r, identity', held, proves, seen⟩ := polled.selected raw round before
      have selected : state = r.current :=
        (WorkerEvent.selected.inj now).symm.trans (Engine.selectedRound_of_rounds held)
      have identities : identity' = identity := by
        rw [selected, proves] at named
        exact Option.some.inj named
      exact identities ▸ seen.later _

/-- An event is forwarded for an identity that a General proved. -/
theorem Polled.forward {identity : String} (seen : GeneralSeen platform log identity) (name : String) :
    Polled platform ⟨w, log ++ [.forwarded identity name]⟩ := by
  refine ⟨fun raw round member => ?_, fun state identity' since named => ?_,
    polled.proven.snoc (fun _ _ same => ?_)⟩
  · have before : .general raw round ∈ log := by simpa using member
    obtain ⟨r, identity', held, proves, seen'⟩ := polled.selected raw round before
    exact ⟨r, identity', held, proves, seen'.later _⟩
  · rcases since.snoc with before | ⟨no, -⟩
    · exact (polled.since state identity' before named).later _
    · cases no
  · cases same
    exact seen

/-- The entries of KV say nothing of who speaks. -/
theorem Polled.entries {w' : Worker} (same : w'.session = w.session) : Polled platform ⟨w', log⟩ :=
  ⟨fun raw round member => by simpa only [same] using polled.selected raw round member, polled.since, polled.proven⟩

theorem Polled.authmessage (sid : String) (weather : PollingWeather) (raw : AuthArg) :
    Polled platform ⟨(handleAuthmessage platform sid weather raw w).1,
      log ++ (handleAuthmessage platform sid weather raw w).2⟩ := by
  have whole : log ++ [] = log := List.append_nil log
  simp only [handleAuthmessage]
  split
  · rw [whole]
    exact polled
  split
  · rw [whole]
    exact polled.entries rfl
  rename_i completed _
  have rounds := @rounds_authRoundInDo platform sid weather raw completed w.session
  have current := @current_authRoundInDo platform sid weather raw completed w.session
  generalize authRoundInDo platform sid weather raw completed w.session = call at rounds current ⊢
  obtain ⟨session, verified, heard⟩ := call
  simp only at rounds current
  -- What the session object did, whatever the Worker hears of it.
  have called : Polled platform ⟨{ w with session }, log ++ verified⟩ := by
    rcases rounds with ⟨r, identity, held, proves, signed, rfl⟩ | ⟨rfl | rfl, kept, -⟩
    · have selected := (polled.verified held proves signed).select
      simpa [Engine.selectedRound_of_rounds held] using selected
    · rw [whole]
      exact polled.unmoved kept
    · exact (polled.unmoved kept).select
  cases heard with
  | none => exact called.entries rfl
  | some answer =>
    obtain ⟨remote, round⟩ := answer
    have same := current rfl
    simp only
    split
    · rename_i payload outcome
      have told := general_of_remote outcome
      rcases rounds with ⟨r, identity, held, proves, signed, rfl⟩ | ⟨-, -, other⟩
      swap
      · exact absurd told (other remote round payload rfl)
      have selected : round = r.current := same.trans (Engine.selectedRound_of_rounds held)
      have seen : GeneralSeen platform (log ++ [.general raw r.current, .selected r.current]) identity :=
        ⟨raw, r.current, by simp, signed⟩
      rw [← List.append_assoc]
      unfold forwardGeneral
      simp only [selected, proves]
      by_cases fast : (decodeEventPayload platform payload).1 = "authenticated"
      · rw [if_pos fast, List.append_nil]
        exact called.entries rfl
      · rw [if_neg fast]
        exact (called.forward seen _).entries rfl
    all_goals exact called.entries rfl

/-- A plain event under the condition. -/
theorem Polled.plain (weather : PollingWeather) (name : String)
    (since : (w.loadAuthState weather.authRead).isAuthenticated = true →
      SelectedSince log (w.loadAuthState weather.authRead)) :
    Polled platform ⟨(forwardAndEnqueue weather name w).1, log ++ (forwardAndEnqueue weather name w).2⟩ := by
  simp only [forwardAndEnqueue]
  split
  · simpa using polled
  · rename_i identity named
    have known := isAuthenticated_of_named named
    have seen := polled.since _ identity (since known) named
    exact (polled.forward seen name).entries rfl

end Steps

theorem Polled.step {c : Config Worker WorkerEvent} (polled : Polled platform c) {sid : String} {input : PollingInput}
    (since : SpeaksSince c input) : Polled platform ((pollingMachine platform sid).advance c input) := by
  have idle (log : List WorkerEvent) : log ++ [] = log := List.append_nil log
  simp only [Machine.advance, pollingMachine]
  cases input with
  | post closedRead =>
    simp only [pollingStep, idle]
    exact polled.entries rfl
  | poll closedRead authRead due =>
    simp only [pollingStep, idle]
    apply polled.entries
    simp only [handlePollingGet]
    split
    · rfl
    · split <;> rfl
  | evicted =>
    simp only [pollingStep, idle]
    exact polled.unmoved (fun r held _ => ⟨r, held, rfl⟩)
  | packet packet weather =>
    simp only [pollingStep]
    split
    swap
    · rw [idle]
      exact polled
    rename_i admitted
    have closed : Polled platform ⟨c.state.markClosed weather, c.log ++ []⟩ := by
      rw [idle]
      exact polled.entries rfl
    have same : Polled platform ⟨c.state, c.log ++ []⟩ := by
      rw [idle]
      exact polled
    cases packet with
    | opened | ping | pong | upgrade | noop => exact same
    | close => exact closed
    | message packet =>
      cases packet with
      | none => exact same
      | some packet =>
        cases packet with
        | connect | ack | connectError => exact same
        | disconnect => exact closed
        | event event =>
          cases event with
          | unnamed => exact same
          | authMessage raw => exact polled.authmessage sid weather raw
          | sessionAttach | sessionMessage | other => exact polled.plain weather _ (since rfl admitted)

variable (platform) in
/-- In every run whose plain events find in KV a round that was selected since a General, whatever else the reads of KV
find, every forward comes after a General signed by its identity and verified under a round of that identity. -/
theorem polling_forwards_proven (sid : String) (inputs : List PollingInput)
    (since : (pollingMachine platform sid).Guarded SpeaksSince ⟨Worker.start, []⟩ inputs)
    (before after : List WorkerEvent) (identity name : String)
    (forwarded : ((pollingMachine platform sid).run ⟨Worker.start, []⟩ inputs).log =
      before ++ .forwarded identity name :: after) :
    ∃ raw round, .general raw round ∈ before ∧ SignedBy platform.wallet raw round identity := by
  have fresh : Polled platform ⟨Worker.start, []⟩ :=
    ⟨fun _ _ no => (by cases no), fun _ _ since _ => (by obtain ⟨_, _, no⟩ := since.general; cases no), preceded_nil⟩
  have polled := (pollingMachine platform sid).run_invariant (fun _ _ polled since => polled.step since) fresh since
  exact polled.proven before _ after forwarded identity name rfl

end Proof

/-- A wallet that knows one signature of alice's. -/
def pollingPlatform : Platform :=
  { crypto := tableCrypto [] [],
    wallet :=
      { authVersion := "0.1", identityKey := .ok "server", createSignature := fun _ _ => .ok [0],
        verifySignature := fun msg _ signature => .ok (msg.identityKey = "alice" && signature = [1]) },
    parseJson := fun _ => none,
    printJson := fun _ => "",
    fits := fun _ => true }

def PollingWeather.calm : PollingWeather :=
  { keyed := true, createdNonce := .ok "nonce", reached := true, answered := true, ambient := .clockOnly 0,
    authRead := some 0, authWritten := true, touched := true, closedWritten := true }

def requestFor (identity : String) : AuthArg :=
  { messageType := some "initialRequest", yourNonce := none,
    message := .ok
      { version := "0.1", messageType := .initialRequest, identityKey := identity, nonce := none,
        initialNonce := some "peer", yourNonce := none, payload := none, signature := none } }

def generalOfAlice : AuthArg :=
  { messageType := some "general", yourNonce := some "nonce",
    message := .ok
      { version := "0.1", messageType := .general, identityKey := "alice", nonce := none, initialNonce := none,
        yourNonce := some "nonce", payload := some [], signature := some [1] } }

def polledEvent (event : ClientEvent) : PollingInput := .packet (.message (some (.event event))) .calm

/-- The handshake, a signed General, and then a plain event. -/
def provenThenPlain : List PollingInput :=
  [.post true, polledEvent (.authMessage (requestFor "alice")), polledEvent (.authMessage generalOfAlice),
    polledEvent (.other "sendMessage")]

/-- What happens in it before the plain event is forwarded. -/
def beforePlain : List WorkerEvent :=
  let round : SessionAuthState := .authenticated "nonce" "peer" "alice"
  [.selected round, .general generalOfAlice round, .selected round, .forwarded "alice" "_unknown"]

theorem polling_forwards_proven_afterGeneral :
    ((pollingMachine pollingPlatform "sid").run ⟨Worker.start, []⟩ provenThenPlain).log =
        beforePlain ++ .forwarded "alice" "sendMessage" :: [] ∧
      ∃ raw round, .general raw round ∈ beforePlain ∧ SignedBy pollingPlatform.wallet raw round "alice" := by
  have run : ((pollingMachine pollingPlatform "sid").run ⟨Worker.start, []⟩ provenThenPlain).log =
      beforePlain ++ .forwarded "alice" "sendMessage" :: [] := rfl
  have since : (pollingMachine pollingPlatform "sid").Guarded SpeaksSince ⟨Worker.start, []⟩ provenThenPlain := by
    refine ⟨trivial, fun no => (by cases no), fun no => (by cases no), fun _ _ _ => ?_, trivial⟩
    exact ⟨beforePlain.take 2, beforePlain.drop 2, generalOfAlice, .authenticated "nonce" "peer" "alice", rfl,
      List.mem_cons_of_mem _ (List.mem_cons_self ..), List.mem_cons_self ..⟩
  exact ⟨run, polling_forwards_proven pollingPlatform "sid" provenThenPlain since _ _ _ _ run⟩

/-- An InitialRequest that names a victim, and a plain event right after it. -/
def unsignedThenPlain : List PollingInput :=
  [.post true, polledEvent (.authMessage (requestFor "victim")), polledEvent (.other "sendMessage")]

/-- The event is forwarded to the victim's hub, and nothing was signed. -/
theorem unsigned_request_forwards :
    ∃ before after, ((pollingMachine pollingPlatform "sid").run ⟨Worker.start, []⟩ unsignedThenPlain).log =
        before ++ .forwarded "victim" "sendMessage" :: after ∧
      ¬ ∃ raw round, .general raw round ∈ before ∧ SignedBy pollingPlatform.wallet raw round "victim" := by
  refine ⟨[.selected (.authenticated "nonce" "peer" "victim")], [], rfl, ?_⟩
  rintro ⟨raw, round, member, -⟩
  simp at member

end MessageRelay.Session
