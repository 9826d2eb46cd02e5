import MessageRelay.Session.Wire

/-! The attach exchange over its port, and the port of a session object. An exchange waits once, for the hub of the
identity. Between its two halves another attach and a handshake may run on the same socket. -/

namespace MessageRelay.Session
open MessageRelay.Library MessageRelay.Lane

/-- Why the hub could not be asked. -/
inductive HubFault where
  | timeout
  | binding
  | fetch
  | status
  | decode
  deriving DecidableEq, Repr

def HubFault.lineReason : HubFault → String
  | .timeout => "hub-unavailable.timeout"
  | .binding => "hub-unavailable.binding"
  | .fetch => "hub-unavailable.fetch"
  | .status => "hub-unavailable.status"
  | .decode => "hub-unavailable.decode"

/-- The gate of one attach for each socket. -/
inductive AttachGate where
  | noSession
  | refuse (reason : String)
  | proceed
  deriving DecidableEq, Repr

/-- The compare-and-set after the hub's verdict. -/
inductive AttachCommit where
  | noSession
  | lost
  | won
  deriving DecidableEq, Repr

/-- The end of an exchange, as its one line names it. -/
inductive AttachEnd where
  | answered
  | refused (line : String)
  | dropped (why : String)
  deriving DecidableEq, Repr

/-- What the client hears of an attach. -/
inductive AttachSent where
  | refused (reason : String)
  | attached (d m : String)
  deriving DecidableEq, Repr

/-- What the exchange needs from its host. -/
structure AttachPort (σ : Type) where
  emit : AttachSent → σ → σ
  gate : σ → AttachGate × σ
  persist : σ → σ
  random32 : σ → Option Bytes32 × σ
  mint : SessionAuthState → String → String → σ → Option (SessionLane × Value) × σ
  commit : SessionAuthState → SessionLane → σ → AttachCommit × σ

def Value.asBool : Value → Option Bool
  | .bool b => some b
  | _ => none

/-- The hub's answer read as its members. -/
structure HubAnswer where
  ok : Bool
  reason : String
  identity : String
  key : String
  deriving DecidableEq, Repr

def HubAnswer.read (v : Value) : HubAnswer where
  ok := (v.get "ok").bind Value.asBool = some true
  reason := ((v.get "reason").bind Value.asStr).getD "unknown-session"
  identity := toAsciiLowercase (((v.get "identity").bind Value.asStr).getD "")
  key := ((v.get "key").bind Value.asStr).getD ""

/-- The hub vouches for the identity of the frame, and gives the key of its mirror. -/
def HubAnswer.vouches (answer : HubAnswer) (frame : AttachFrame) : Bool :=
  answer.ok && !(answer.identity = "" || answer.identity ≠ frame.identity || answer.key = "")

section Exchange
variable {σ : Type} (platform : Platform) (libraries : Libraries) (port : AttachPort σ)

def refuseAttach (wire line : String) (s : σ) : AttachEnd × σ := (.refused line, port.emit (.refused wire) s)

/-- Up to the hub: the exchange ended, or the hub is asked for the frame's identity. -/
def attachBegins (decoded : Option AttachFrame) (s : σ) : Except AttachEnd AttachFrame × σ :=
  match parseAttachFrame decoded with
  | none =>
    match refuseAttach port Refusal.malformed.asStr Refusal.malformed.asStr s with
    | (ended, s) => (.error ended, s)
  | some frame =>
    match port.gate s with
    | (.noSession, s) => (.error (.dropped "no-session"), s)
    | (.refuse reason, s) =>
      match refuseAttach port reason reason s with
      | (ended, s) => (.error ended, s)
    | (.proceed, s) => (.ok frame, port.persist s)

/-- The nonce the relay answers with, and the session it makes of the frame. -/
def attachedState (frame : AttachFrame) (identity : String) (random : Bytes32) : SessionAuthState :=
  .authenticated (hexEncode random.toList) frame.nonce identity

def attachedData (frame : AttachFrame) (random : Bytes32) (offer : Value) : String :=
  platform.printJson (.object [("nonce", .string frame.nonce), ("serverNonce", .string (hexEncode random.toList)),
    ("session", offer)])

/-- From the hub's answer on. The ack is sealed under the hub's key after the commit. -/
def attachEnds (frame : AttachFrame) (verdict : Except HubFault Value) (s : σ) : AttachEnd × σ :=
  match verdict with
  | .error fault => refuseAttach port "hub-unavailable" fault.lineReason s
  | .ok v =>
    let answer := HubAnswer.read v
    if !answer.ok then refuseAttach port answer.reason answer.reason s
    else if !answer.vouches frame then
      refuseAttach port Refusal.unknownSession.asStr Refusal.unknownSession.asStr s
    else
      match port.random32 s with
      | (none, s) => refuseAttach port "no-randomness" "no-randomness" s
      | (some random, s) =>
        match port.mint (attachedState frame answer.identity random) answer.identity frame.nonce s with
        | (none, s) => refuseAttach port "mint-failed" "mint-failed" s
        | (some (lane, offer), s) =>
          match port.commit (attachedState frame answer.identity random) lane s with
          | (.lost, s) => refuseAttach port "already-authenticated" "already-authenticated" s
          | (.noSession, s) => (.dropped "no-session", s)
          | (.won, s) =>
            let s := port.persist s
            let d := attachedData platform frame random offer
            match Engine.attachAckMac platform libraries answer.key d with
            | none => refuseAttach port "mint-failed" "mint-failed" s
            | some m => (.answered, port.emit (.attached d m) s)

end Exchange

/-- What happens on the socket, each event with its exchange. -/
inductive AttachEvent where
  | asked (exchange : Nat) (identity : String)
  | told (exchange : Nat) (verdict : Except HubFault Value)
  | won (exchange : Nat)
  | sent (exchange : Nat) (sent : AttachSent)
  | ended (exchange : Nat) (ended : AttachEnd)

inductive AttachTask where
  | idle
  | asking (frame : AttachFrame)
  | done

/-- One socket's session and the exchanges on it. `builtBy` names the exchange whose commit wrote the session's auth
state and lane, if one did. -/
structure AttachSocket where
  session : Option SessionState
  builtBy : Option Nat
  tasks : Nat → AttachTask

/-- What the platform gives an exchange. -/
structure AttachWeather where
  random : Option Bytes32
  minted : SessionAuthState → String → String → Option (SessionLane × Value)

namespace AttachSocket

def setTask (s : AttachSocket) (i : Nat) (task : AttachTask) : AttachSocket :=
  { s with tasks := Function.update s.tasks i task }

end AttachSocket

/-- The session object as the port of exchange `i`. The attachment it persists to is left out. -/
def doAttachPort (i : Nat) (w : AttachWeather) : AttachPort (AttachSocket × List AttachEvent) where
  emit sent := fun (s, log) => (s, log ++ [.sent i sent])
  gate := fun (s, log) =>
    match s.session with
    | none => (.noSession, s, log)
    | some session =>
      if session.auth.isAuthenticated then (.refuse "already-authenticated", s, log)
      else if session.attachAttempted then (.refuse "attach-exhausted", s, log)
      else (.proceed, { s with session := some { session with attachAttempted := true } }, log)
  persist := id
  random32 s := (w.random, s)
  mint state identity ask s := (w.minted state identity ask, s)
  commit state lane := fun (s, log) =>
    match s.session with
    | none => (.noSession, s, log)
    | some session =>
      if session.auth.isAuthenticated then (.lost, s, log)
      else
        (.won, { s with
          session := some { session with auth := state, authenticatedEmitted := true, lane := some lane }
          builtBy := some i }, log ++ [.won i])

inductive AttachInput where
  | attach (i : Nat) (decoded : Option AttachFrame) (weather : AttachWeather)
  | verdict (i : Nat) (verdict : Except HubFault Value) (weather : AttachWeather)
  /-- A handshake's writes to the session. -/
  | handshake (auth : SessionAuthState) (lane : Option SessionLane)
  | close

section Socket
variable (platform : Platform) (libraries : Libraries)

def attachStep (s : AttachSocket) : AttachInput → AttachSocket × List AttachEvent
  | .attach i decoded w =>
    match s.tasks i with
    | .idle =>
      match attachBegins (doAttachPort i w) decoded (s, []) with
      | (.error ended, s, log) => (s.setTask i .done, log ++ [.ended i ended])
      | (.ok frame, s, log) => (s.setTask i (.asking frame), log ++ [.asked i frame.identity])
    | _ => (s, [])
  | .verdict i verdict w =>
    match s.tasks i with
    | .asking frame =>
      match attachEnds platform libraries (doAttachPort i w) frame verdict (s, [.told i verdict]) with
      | (ended, s, log) => (s.setTask i .done, log ++ [.ended i ended])
    | _ => (s, [])
  | .handshake auth lane =>
    ({ s with session := s.session.map (fun session => { session with auth, lane }), builtBy := none }, [])
  | .close => ({ s with session := none, builtBy := none }, [])

def attachMachine : Machine AttachSocket AttachInput AttachEvent := ⟨attachStep platform libraries⟩

end Socket

def AttachSocket.start (session : Option SessionState) : AttachSocket := ⟨session, none, fun _ => .idle⟩

abbrev AttachConfig := Config AttachSocket AttachEvent

def sentOf (i : Nat) (log : List AttachEvent) : List AttachSent :=
  log.filterMap (fun | .sent j sent => if j = i then some sent else none | _ => none)

def endsOf (i : Nat) (log : List AttachEvent) : List AttachEnd :=
  log.filterMap (fun | .ended j ended => if j = i then some ended else none | _ => none)

def asksIn (log : List AttachEvent) : Nat :=
  log.countP (fun | .asked _ _ => true | _ => false)

/-- The wire events an end stands for. -/
def AttachEnd.heard : AttachEnd → Nat
  | .dropped _ => 0
  | _ => 1

/-- An attach answers once and only as it acted. -/
structure AnswersAsActed (c : AttachConfig) : Prop where
  once : ∀ i, (endsOf i c.log = [] ∧ sentOf i c.log = []) ∨
    ∃ ended, endsOf i c.log = [ended] ∧ (sentOf i c.log).length = ended.heard
  asks : asksIn c.log ≤ 1
  answered : ∀ i, .answered ∈ endsOf i c.log → .won i ∈ c.log ∧ ∃ identity v, .asked i identity ∈ c.log ∧
    .told i (.ok v) ∈ c.log ∧ (HubAnswer.read v).ok = true ∧ (HubAnswer.read v).identity = identity
  acted : ∀ i, ∀ ended ∈ endsOf i c.log, ended ≠ .answered → c.state.builtBy ≠ some i

/-- The hub's key where an exchange's commit wins. -/
def committedKey (s : AttachSocket) (frame : AttachFrame) (verdict : Except HubFault Value) (w : AttachWeather) :
    Option String :=
  match verdict, w.random with
  | .ok v, some random =>
    let answer := HubAnswer.read v
    if answer.vouches frame ∧ s.session.any (fun session => !session.auth.isAuthenticated) ∧
        (w.minted (attachedState frame answer.identity random) answer.identity frame.nonce).isSome then
      some answer.key
    else none
  | _, _ => none

/-- The condition on a step: where a commit wins, the hub's key is hexadecimal. -/
def SealsAck (c : AttachConfig) : AttachInput → Prop
  | .verdict i verdict w => ∀ frame, c.state.tasks i = .asking frame →
      ∀ key, committedKey c.state frame verdict w = some key → (hexDecode key).isSome
  | _ => True

section Halves
variable (platform : Platform) (libraries : Libraries) (i : Nat) (w : AttachWeather)

/-- The first half ends the exchange and changes nothing, or spends the socket's attach. -/
theorem attachBegins_cases (decoded : Option AttachFrame) (s : AttachSocket) :
    (∃ reason, attachBegins (doAttachPort i w) decoded (s, []) =
      (.error (.refused reason), s, [.sent i (.refused reason)])) ∨
    attachBegins (doAttachPort i w) decoded (s, []) = (.error (.dropped "no-session"), s, []) ∨
    ∃ frame session, s.session = some session ∧ session.attachAttempted = false ∧
      attachBegins (doAttachPort i w) decoded (s, []) =
        (.ok frame, { s with session := some { session with attachAttempted := true } }, []) := by
  unfold attachBegins
  cases parseAttachFrame decoded with
  | none => exact Or.inl ⟨_, rfl⟩
  | some frame =>
    simp only [doAttachPort]
    cases there : s.session with
    | none => exact Or.inr (Or.inl rfl)
    | some session =>
      simp only
      by_cases authenticated : session.auth.isAuthenticated
      · simp only [authenticated, if_true]
        exact Or.inl ⟨_, rfl⟩
      · by_cases attempted : session.attachAttempted
        · simp only [authenticated, attempted, if_true]
          exact Or.inl ⟨_, rfl⟩
        · simp only [authenticated, attempted]
          exact Or.inr (Or.inr ⟨frame, session, rfl, by simpa using attempted, rfl⟩)

/-- The socket after a commit that won. -/
def AttachSocket.built (s : AttachSocket) (i : Nat) (session : SessionState) (state : SessionAuthState)
    (lane : SessionLane) : AttachSocket :=
  { s with
    session := some { session with auth := state, authenticatedEmitted := true, lane := some lane }
    builtBy := some i }

/-- How the second half ends. -/
inductive EndsAs (s : AttachSocket) (log : List AttachEvent) (frame : AttachFrame) (verdict : Except HubFault Value) :
    AttachEnd × AttachSocket × List AttachEvent → Prop where
  | refused (wire line : String) (uncommitted : committedKey s frame verdict w = none) :
      EndsAs s log frame verdict (.refused line, s, log ++ [.sent i (.refused wire)])
  | dropped (uncommitted : committedKey s frame verdict w = none) :
      EndsAs s log frame verdict (.dropped "no-session", s, log)
  | late (session : SessionState) (state : SessionAuthState) (lane : SessionLane) (there : s.session = some session)
      (key : String) (committed : committedKey s frame verdict w = some key) (unread : hexDecode key = none) :
      EndsAs s log frame verdict (.refused "mint-failed", s.built i session state lane,
        log ++ [.won i] ++ [.sent i (.refused "mint-failed")])
  | answered (session : SessionState) (state : SessionAuthState) (lane : SessionLane)
      (there : s.session = some session) (key : String) (committed : committedKey s frame verdict w = some key)
      (reads : (hexDecode key).isSome) (v : Value) (told : verdict = .ok v) (ok : (HubAnswer.read v).ok = true)
      (own : (HubAnswer.read v).identity = frame.identity) (d m : String) :
      EndsAs s log frame verdict (.answered, s.built i session state lane, log ++ [.won i] ++ [.sent i (.attached d m)])

theorem committedKey_unvouched {s : AttachSocket} {frame : AttachFrame} {v : Value}
    (unvouched : (HubAnswer.read v).vouches frame = false) : committedKey s frame (.ok v) w = none := by
  unfold committedKey
  cases w.random with
  | none => rfl
  | some random => simp [unvouched]

theorem vouches_own {answer : HubAnswer} {frame : AttachFrame} (vouches : answer.vouches frame = true) :
    answer.ok = true ∧ answer.identity = frame.identity := by
  simp only [HubAnswer.vouches, Bool.and_eq_true, Bool.not_eq_true', Bool.or_eq_false_iff, decide_eq_false_iff_not,
    ne_eq, not_not] at vouches
  exact ⟨vouches.1, vouches.2.1.2⟩

theorem attachEnds_cases (frame : AttachFrame) (verdict : Except HubFault Value) (s : AttachSocket)
    (log : List AttachEvent) :
    EndsAs i w s log frame verdict (attachEnds platform libraries (doAttachPort i w) frame verdict (s, log)) := by
  unfold attachEnds
  cases verdict with
  | error fault => exact .refused _ _ rfl
  | ok v =>
    simp only
    by_cases vouches : (HubAnswer.read v).vouches frame = true
    · obtain ⟨ok, own⟩ := vouches_own vouches
      simp only [ok, vouches, Bool.not_true, Bool.false_eq_true, if_false, doAttachPort]
      cases random : w.random with
      | none => exact .refused _ _ (by simp [committedKey, random])
      | some random' =>
        simp only
        cases minted : w.minted (attachedState frame (HubAnswer.read v).identity random') (HubAnswer.read v).identity
          frame.nonce with
        | none => exact .refused _ _ (by simp [committedKey, random, minted])
        | some pair =>
          obtain ⟨lane, offer⟩ := pair
          simp only
          cases there : s.session with
          | none => exact .dropped (by simp [committedKey, random, there])
          | some session =>
            simp only
            by_cases authenticated : session.auth.isAuthenticated
            · simp only [authenticated, if_true]
              exact .refused _ _ (by simp [committedKey, random, there, authenticated])
            · have committed : committedKey s frame (.ok v) w = some (HubAnswer.read v).key := by
                simp [committedKey, random, there, minted, vouches, authenticated]
              simp only [authenticated, Bool.false_eq_true, if_false, Engine.attachAckMac]
              cases decoded : hexDecode (HubAnswer.read v).key with
              | none => exact .late session _ lane there _ committed decoded
              | some key => exact .answered session _ lane there _ committed (by simp [decoded]) v rfl ok own _ _
    · have uncommitted := committedKey_unvouched w (s := s) (by simpa using vouches)
      by_cases ok : (HubAnswer.read v).ok = true
      · simp only [ok, vouches, Bool.not_true, Bool.false_eq_true, Bool.not_false, if_true, if_false]
        exact .refused _ _ uncommitted
      · simp only [ok, Bool.not_false, if_true]
        exact .refused _ _ uncommitted

end Halves

def AttachEvent.exchange : AttachEvent → Nat
  | .asked i _ | .told i _ | .won i | .sent i _ | .ended i _ => i

/-- What the log holds of an exchange, by how far its task has come. -/
def Exchange (i : Nat) (log : List AttachEvent) : AttachTask → Prop
  | .idle => endsOf i log = [] ∧ sentOf i log = []
  | .asking frame => (endsOf i log = [] ∧ sentOf i log = []) ∧ .asked i frame.identity ∈ log
  | .done => ∃ ended, endsOf i log = [ended] ∧ (sentOf i log).length = ended.heard ∧
    (ended = .answered → .won i ∈ log ∧ ∃ identity v, .asked i identity ∈ log ∧ .told i (.ok v) ∈ log ∧
      (HubAnswer.read v).ok = true ∧ (HubAnswer.read v).identity = identity)

/-- What every step keeps, whatever the hub's key. -/
structure AttachKept (c : AttachConfig) : Prop where
  exchange : ∀ i, Exchange i c.log (c.state.tasks i)
  built : ∀ i, c.state.builtBy = some i → c.state.tasks i = .done
  asks : asksIn c.log ≤ 1
  spent : asksIn c.log = 1 → ∀ session, c.state.session = some session → session.attachAttempted = true

def Acted (c : AttachConfig) : Prop :=
  ∀ i, ∀ ended ∈ endsOf i c.log, ended ≠ .answered → c.state.builtBy ≠ some i

theorem AttachKept.answersAsActed {c : AttachConfig} (kept : AttachKept c) (acted : Acted c) : AnswersAsActed c where
  once i := by
    have exchange := kept.exchange i
    cases task : c.state.tasks i with
    | idle => exact Or.inl (by simpa [task, Exchange] using exchange)
    | asking frame =>
      rw [task] at exchange
      exact Or.inl exchange.1
    | done =>
      rw [task] at exchange
      obtain ⟨ended, ends, heard, -⟩ := exchange
      exact Or.inr ⟨ended, ends, heard⟩
  asks := kept.asks
  answered i answered := by
    have exchange := kept.exchange i
    cases task : c.state.tasks i with
    | idle =>
      rw [task] at exchange
      simp [exchange.1] at answered
    | asking frame =>
      rw [task] at exchange
      simp [exchange.1.1] at answered
    | done =>
      rw [task] at exchange
      obtain ⟨ended, ends, -, acts⟩ := exchange
      rw [ends, List.mem_singleton] at answered
      exact acts answered.symm
  acted := acted

theorem endsOf_append (i : Nat) (first second : List AttachEvent) :
    endsOf i (first ++ second) = endsOf i first ++ endsOf i second := List.filterMap_append

theorem sentOf_append (i : Nat) (first second : List AttachEvent) :
    sentOf i (first ++ second) = sentOf i first ++ sentOf i second := List.filterMap_append

theorem asksIn_append (first second : List AttachEvent) :
    asksIn (first ++ second) = asksIn first + asksIn second := List.countP_append

theorem endsOf_other {i j : Nat} (apart : j ≠ i) {events : List AttachEvent} (own : ∀ e ∈ events, e.exchange = i) :
    endsOf j events = [] := by
  rw [endsOf, List.filterMap_eq_nil_iff]
  intro e member
  have of := own e member
  cases e <;> simp_all [AttachEvent.exchange, Ne.symm]

theorem sentOf_other {i j : Nat} (apart : j ≠ i) {events : List AttachEvent} (own : ∀ e ∈ events, e.exchange = i) :
    sentOf j events = [] := by
  rw [sentOf, List.filterMap_eq_nil_iff]
  intro e member
  have of := own e member
  cases e <;> simp_all [AttachEvent.exchange, Ne.symm]

/-- An exchange does not hear of another's events. -/
theorem Exchange.beside {i j : Nat} (apart : j ≠ i) {log events : List AttachEvent}
    (own : ∀ e ∈ events, e.exchange = i) {task : AttachTask} (exchange : Exchange j log task) :
    Exchange j (log ++ events) task := by
  have ends : endsOf j (log ++ events) = endsOf j log := by rw [endsOf_append, endsOf_other apart own, List.append_nil]
  have sents : sentOf j (log ++ events) = sentOf j log := by
    rw [sentOf_append, sentOf_other apart own, List.append_nil]
  cases task with
  | idle => exact ⟨ends.trans exchange.1, sents.trans exchange.2⟩
  | asking frame =>
    exact ⟨⟨ends.trans exchange.1.1, sents.trans exchange.1.2⟩, List.mem_append_left _ exchange.2⟩
  | done =>
    obtain ⟨ended, end_, heard, acts⟩ := exchange
    refine ⟨ended, ends.trans end_, (congrArg List.length sents).trans heard, fun answered => ?_⟩
    obtain ⟨won, identity, v, asked, told, vouched⟩ := acts answered
    exact ⟨List.mem_append_left _ won, identity, v, List.mem_append_left _ asked, List.mem_append_left _ told, vouched⟩

/-- One exchange moved: what is kept of the socket follows from what is kept of it. -/
theorem AttachKept.moved {c : AttachConfig} (kept : AttachKept c) {i : Nat} (task : AttachTask) {s : AttachSocket}
    {events : List AttachEvent} (own : ∀ e ∈ events, e.exchange = i)
    (tasks : s.tasks = Function.update c.state.tasks i task) (exchange : Exchange i (c.log ++ events) task)
    (built : s.builtBy = c.state.builtBy ∧ c.state.tasks i ≠ .done ∨ task = .done ∧ s.builtBy = some i)
    (asks : asksIn (c.log ++ events) ≤ 1)
    (spent : asksIn (c.log ++ events) = 1 → ∀ session, s.session = some session → session.attachAttempted = true) :
    AttachKept ⟨s, c.log ++ events⟩ where
  exchange j := by
    by_cases same : j = i
    · subst same
      simpa [tasks] using exchange
    · simpa [tasks, same] using (kept.exchange j).beside same own
  built j wrote := by
    rcases built with ⟨before, running⟩ | ⟨rfl, now⟩
    · have done := kept.built j (before.symm.trans wrote)
      have apart : j ≠ i := fun h => running (h ▸ done)
      simpa [tasks, apart] using done
    · obtain rfl : i = j := Option.some.inj (now.symm.trans wrote)
      simp [tasks]
  asks := asks
  spent := spent

/-- After a step of one exchange, only that exchange can have built what it did not answer. -/
theorem acted_moved {c : AttachConfig} (acted : Acted c) {i : Nat} {s : AttachSocket} {events : List AttachEvent}
    (own : ∀ e ∈ events, e.exchange = i) {ends : List AttachEnd} (ended : endsOf i (c.log ++ events) = ends)
    (built : s.builtBy = c.state.builtBy ∨ s.builtBy = some i) :
    Acted ⟨s, c.log ++ events⟩ ↔ ∀ ended ∈ ends, ended ≠ .answered → s.builtBy ≠ some i := by
  subst ended
  constructor
  · exact fun after => after i
  · intro last j ended member unanswered
    by_cases same : j = i
    · subst same
      exact last ended member unanswered
    · have before : ended ∈ endsOf j c.log := by
        have others : endsOf j (c.log ++ events) = endsOf j c.log := by
          rw [endsOf_append, endsOf_other same own, List.append_nil]
        exact others ▸ member
      rcases built with kept | now
      · exact fun wrote => acted j ended before unanswered (kept.symm.trans wrote)
      · exact fun wrote => same (Option.some.inj (now.symm.trans wrote)).symm

section Steps
variable (platform : Platform) (libraries : Libraries)

/-- The first half of an exchange writes nothing of the session but that its attach is spent. -/
theorem kept_attach {c : AttachConfig} (kept : AttachKept c) (i : Nat) (decoded : Option AttachFrame)
    (w : AttachWeather) :
    AttachKept ((attachMachine platform libraries).advance c (.attach i decoded w)) ∧
      (Acted c → Acted ((attachMachine platform libraries).advance c (.attach i decoded w))) := by
  have before := kept.exchange i
  simp only [Machine.advance, attachMachine, attachStep]
  cases task : c.state.tasks i with
  | asking frame => simpa using kept
  | done => simpa using kept
  | idle =>
    rw [task] at before
    obtain ⟨ends, sents⟩ := before
    have running : c.state.tasks i ≠ .done := by simp [task]
    have unbuilt : c.state.builtBy ≠ some i := fun wrote => running (kept.built i wrote)
    rcases attachBegins_cases i w decoded c.state with ⟨reason, came⟩ | came | ⟨frame, session, there, unspent, came⟩
    · rw [came]
      have own : ∀ e ∈ [AttachEvent.sent i (.refused reason)] ++ [.ended i (.refused reason)], e.exchange = i := by
        simp [AttachEvent.exchange]
      have quiet : asksIn (c.log ++ ([.sent i (.refused reason)] ++ [.ended i (.refused reason)])) = asksIn c.log := by
        simp [asksIn]
      refine ⟨kept.moved .done own rfl ⟨.refused reason, ?_, ?_, by simp⟩ (Or.inl ⟨rfl, running⟩) (quiet ▸ kept.asks)
        (quiet ▸ kept.spent), fun acted => (acted_moved acted own rfl (Or.inl rfl)).mpr fun _ _ _ => unbuilt⟩
      · rw [endsOf_append, ends, List.nil_append]
        simp [endsOf]
      · rw [sentOf_append, sents, List.nil_append]
        simp [sentOf, AttachEnd.heard]
    · rw [came]
      have own : ∀ e ∈ [] ++ [AttachEvent.ended i (.dropped "no-session")], e.exchange = i := by
        simp [AttachEvent.exchange]
      have quiet : asksIn (c.log ++ ([] ++ [.ended i (.dropped "no-session")])) = asksIn c.log := by simp [asksIn]
      refine ⟨kept.moved .done own rfl ⟨.dropped "no-session", ?_, ?_, by simp⟩ (Or.inl ⟨rfl, running⟩)
        (quiet ▸ kept.asks) (quiet ▸ kept.spent),
        fun acted => (acted_moved acted own rfl (Or.inl rfl)).mpr fun _ _ _ => unbuilt⟩
      · rw [endsOf_append, ends, List.nil_append]
        simp [endsOf]
      · rw [sentOf_append, sents, List.nil_append]
        simp [sentOf, AttachEnd.heard]
    · rw [came]
      have own : ∀ e ∈ [] ++ [AttachEvent.asked i frame.identity], e.exchange = i := by simp [AttachEvent.exchange]
      have unasked : asksIn c.log = 0 := by
        by_contra asked
        have once : asksIn c.log = 1 := by
          have most := kept.asks
          omega
        have spent := kept.spent once session there
        simp [unspent] at spent
      have asked : asksIn (c.log ++ ([] ++ [.asked i frame.identity])) = 1 := by
        rw [asksIn_append, unasked]
        rfl
      refine ⟨kept.moved (.asking frame) own rfl ⟨⟨?_, ?_⟩, by simp⟩ (Or.inl ⟨rfl, running⟩) asked.le (fun _ => ?_),
        fun acted => (acted_moved acted own rfl (Or.inl rfl)).mpr fun _ _ _ => unbuilt⟩
      · rw [endsOf_append, ends, List.nil_append]
        simp [endsOf]
      · rw [sentOf_append, sents, List.nil_append]
        simp [sentOf]
      · rintro _ ⟨⟩
        rfl

theorem sealsAck_iff {c : AttachConfig} {i : Nat} {frame : AttachFrame} (task : c.state.tasks i = .asking frame)
    (verdict : Except HubFault Value) (w : AttachWeather) : SealsAck c (.verdict i verdict w) ↔
      ∀ key, committedKey c.state frame verdict w = some key → (hexDecode key).isSome := by
  constructor
  · exact fun reads => reads frame task
  · intro reads frame' task'
    obtain rfl : frame = frame' := by
      rw [task] at task'
      exact AttachTask.asking.inj task'
    exact reads

/-- The second half of an exchange, from its end on. -/
theorem kept_ended {c : AttachConfig} (kept : AttachKept c) {i : Nat} {frame : AttachFrame}
    (task : c.state.tasks i = .asking frame) {verdict : Except HubFault Value} {w : AttachWeather}
    {result : AttachEnd × AttachSocket × List AttachEvent}
    (came : EndsAs i w c.state [.told i verdict] frame verdict result) :
    AttachKept ⟨result.2.1.setTask i .done, c.log ++ (result.2.2 ++ [.ended i result.1])⟩ ∧
      (Acted c → (Acted ⟨result.2.1.setTask i .done, c.log ++ (result.2.2 ++ [.ended i result.1])⟩ ↔
        ∀ key, committedKey c.state frame verdict w = some key → (hexDecode key).isSome)) := by
  have before := kept.exchange i
  rw [task] at before
  obtain ⟨⟨ends, sents⟩, asked⟩ := before
  have running : c.state.tasks i ≠ .done := by simp [task]
  have unbuilt : c.state.builtBy ≠ some i := fun wrote => running (kept.built i wrote)
  cases came with
  | refused wire line uncommitted =>
    have own : ∀ e ∈ [AttachEvent.told i verdict] ++ [.sent i (.refused wire)] ++ [.ended i (.refused line)],
        e.exchange = i := by simp [AttachEvent.exchange]
    have quiet : asksIn (c.log ++ ([.told i verdict] ++ [.sent i (.refused wire)] ++ [.ended i (.refused line)])) =
        asksIn c.log := by simp [asksIn]
    have ended : endsOf i (c.log ++ ([.told i verdict] ++ [.sent i (.refused wire)] ++ [.ended i (.refused line)])) =
        [.refused line] := by
      rw [endsOf_append, ends, List.nil_append]
      simp [endsOf]
    refine ⟨kept.moved .done own rfl ⟨.refused line, ended, ?_, nofun⟩ (Or.inl ⟨rfl, running⟩) (quiet ▸ kept.asks)
      (quiet ▸ kept.spent), fun acted => ?_⟩
    · rw [sentOf_append, sents, List.nil_append]
      simp [sentOf, AttachEnd.heard]
    · refine (acted_moved acted own ended (Or.inl rfl)).trans ?_
      simpa [uncommitted, AttachSocket.setTask] using unbuilt
  | dropped uncommitted =>
    have own : ∀ e ∈ [AttachEvent.told i verdict] ++ [.ended i (.dropped "no-session")], e.exchange = i := by
      simp [AttachEvent.exchange]
    have quiet : asksIn (c.log ++ ([.told i verdict] ++ [.ended i (.dropped "no-session")])) = asksIn c.log := by
      simp [asksIn]
    have ended : endsOf i (c.log ++ ([.told i verdict] ++ [.ended i (.dropped "no-session")])) =
        [.dropped "no-session"] := by
      rw [endsOf_append, ends, List.nil_append]
      simp [endsOf]
    refine ⟨kept.moved .done own rfl ⟨.dropped "no-session", ended, ?_, nofun⟩ (Or.inl ⟨rfl, running⟩)
      (quiet ▸ kept.asks) (quiet ▸ kept.spent), fun acted => ?_⟩
    · rw [sentOf_append, sents, List.nil_append]
      simp [sentOf, AttachEnd.heard]
    · refine (acted_moved acted own ended (Or.inl rfl)).trans ?_
      simpa [uncommitted, AttachSocket.setTask] using unbuilt
  | late session state lane there key committed unread =>
    have own : ∀ e ∈ [AttachEvent.told i verdict] ++ [.won i] ++ [.sent i (.refused "mint-failed")] ++
        [.ended i (.refused "mint-failed")], e.exchange = i := by simp [AttachEvent.exchange]
    have quiet : asksIn (c.log ++ ([.told i verdict] ++ [.won i] ++ [.sent i (.refused "mint-failed")] ++
        [.ended i (.refused "mint-failed")])) = asksIn c.log := by simp [asksIn]
    have ended : endsOf i (c.log ++ ([.told i verdict] ++ [.won i] ++ [.sent i (.refused "mint-failed")] ++
        [.ended i (.refused "mint-failed")])) = [.refused "mint-failed"] := by
      rw [endsOf_append, ends, List.nil_append]
      simp [endsOf]
    refine ⟨kept.moved .done own rfl ⟨.refused "mint-failed", ended, ?_, nofun⟩ (Or.inr ⟨rfl, rfl⟩)
      (quiet ▸ kept.asks) (fun once => ?_), fun acted => ?_⟩
    · rw [sentOf_append, sents, List.nil_append]
      simp [sentOf, AttachEnd.heard]
    · rintro _ ⟨⟩
      exact kept.spent (quiet ▸ once) session there
    · -- the session is what this exchange built, and the exchange was refused
      refine (acted_moved acted own ended (Or.inr rfl)).trans ?_
      simp [committed, unread, AttachSocket.setTask, AttachSocket.built]
  | answered session state lane there key committed reads v told ok identity d m =>
    have own : ∀ e ∈ [AttachEvent.told i verdict] ++ [.won i] ++ [.sent i (.attached d m)] ++ [.ended i .answered],
        e.exchange = i := by simp [AttachEvent.exchange]
    have quiet : asksIn (c.log ++ ([.told i verdict] ++ [.won i] ++ [.sent i (.attached d m)] ++
        [.ended i .answered])) = asksIn c.log := by simp [asksIn]
    have ended : endsOf i (c.log ++ ([.told i verdict] ++ [.won i] ++ [.sent i (.attached d m)] ++
        [.ended i .answered])) = [.answered] := by
      rw [endsOf_append, ends, List.nil_append]
      simp [endsOf]
    refine ⟨kept.moved .done own rfl ⟨.answered, ended, ?_, fun _ => ⟨?_, frame.identity, v, ?_, ?_, ok, identity⟩⟩
      (Or.inr ⟨rfl, rfl⟩) (quiet ▸ kept.asks) (fun once => ?_), fun acted => ?_⟩
    · rw [sentOf_append, sents, List.nil_append]
      simp [sentOf, AttachEnd.heard]
    · simp
    · exact List.mem_append_left _ asked
    · simp [told]
    · rintro _ ⟨⟩
      exact kept.spent (quiet ▸ once) session there
    · refine (acted_moved acted own ended (Or.inr rfl)).trans ?_
      simpa [committed] using reads

theorem kept_verdict {c : AttachConfig} (kept : AttachKept c) (i : Nat) (verdict : Except HubFault Value)
    (w : AttachWeather) :
    AttachKept ((attachMachine platform libraries).advance c (.verdict i verdict w)) ∧
      (Acted c → (Acted ((attachMachine platform libraries).advance c (.verdict i verdict w)) ↔
        SealsAck c (.verdict i verdict w))) := by
  cases task : c.state.tasks i with
  | idle => simpa [Machine.advance, attachMachine, attachStep, SealsAck, task] using kept
  | done => simpa [Machine.advance, attachMachine, attachStep, SealsAck, task] using kept
  | asking frame =>
    have after : (attachMachine platform libraries).advance c (.verdict i verdict w) =
        let result := attachEnds platform libraries (doAttachPort i w) frame verdict (c.state, [.told i verdict])
        ⟨result.2.1.setTask i .done, c.log ++ (result.2.2 ++ [.ended i result.1])⟩ := by
      simp only [Machine.advance, attachMachine, attachStep, task]
    rw [after, sealsAck_iff task]
    exact kept_ended kept task (attachEnds_cases platform libraries i w frame verdict c.state [.told i verdict])

/-- A step keeps what is kept, and the session stays what its exchange answered exactly when its ack is sealed. -/
theorem attach_step {c : AttachConfig} (kept : AttachKept c) (input : AttachInput) :
    AttachKept ((attachMachine platform libraries).advance c input) ∧
      (Acted c → (Acted ((attachMachine platform libraries).advance c input) ↔ SealsAck c input)) := by
  cases input with
  | verdict i verdict w => exact kept_verdict platform libraries kept i verdict w
  | attach i decoded w =>
    obtain ⟨kept', acts⟩ := kept_attach platform libraries kept i decoded w
    exact ⟨kept', fun acted => iff_of_true (acts acted) trivial⟩
  | handshake auth lane =>
    refine ⟨⟨?_, fun i wrote => ?_, ?_, ?_⟩, fun _ => iff_of_true (fun i _ _ _ wrote => ?_) trivial⟩
    · simpa [Machine.advance, attachMachine, attachStep] using kept.exchange
    · cases wrote
    · simpa [Machine.advance, attachMachine, attachStep] using kept.asks
    · intro once session there
      simp only [Machine.advance, attachMachine, attachStep, List.append_nil] at once there
      obtain ⟨before, held, rfl⟩ := Option.map_eq_some_iff.mp there
      exact kept.spent once before held
    · cases wrote
  | close =>
    refine ⟨⟨?_, fun i wrote => ?_, ?_, fun _ session there => ?_⟩,
      fun _ => iff_of_true (fun i _ _ _ wrote => ?_) trivial⟩
    · simpa [Machine.advance, attachMachine, attachStep] using kept.exchange
    · cases wrote
    · simpa [Machine.advance, attachMachine, attachStep] using kept.asks
    · cases there
    · cases wrote

theorem attachKept_start (session : Option SessionState) : AttachKept ⟨.start session, []⟩ where
  exchange _ := ⟨rfl, rfl⟩
  built := nofun
  asks := Nat.zero_le 1
  spent := nofun

/-- A run answers each attach once and only as it acted, at every point, exactly when each commit that wins finds a
hexadecimal key to seal its ack with. -/
theorem attach_answers_as_acted_iff (session : Option SessionState) (inputs : List AttachInput) :
    (attachMachine platform libraries).Guarded SealsAck ⟨.start session, []⟩ inputs ↔
      ∀ front, front <+: inputs →
        AnswersAsActed ((attachMachine platform libraries).run ⟨.start session, []⟩ front) := by
  have start := attachKept_start session
  have quiet : Acted ⟨.start session, []⟩ := nofun
  have step (c : AttachConfig) (input : AttachInput) (inv : AttachKept c ∧ Acted c) :
      (AttachKept ((attachMachine platform libraries).advance c input) ∧
        Acted ((attachMachine platform libraries).advance c input)) ↔ SealsAck c input := by
    obtain ⟨kept, acts⟩ := attach_step platform libraries inv.1 input
    rw [← acts inv.2]
    exact and_iff_right kept
  have kept (front : List AttachInput) :
      AttachKept ((attachMachine platform libraries).run ⟨.start session, []⟩ front) := by
    apply Machine.run_kept
    · exact fun c input kept => (attach_step platform libraries kept input).1
    · exact start
  rw [Machine.guarded_iff_forall_prefix _ step ⟨start, quiet⟩]
  constructor
  · exact fun all front part => (kept front).answersAsActed (all front part).2
  · exact fun all front part => ⟨kept front, (all front part).acted⟩

end Steps

def attachLibraries : Libraries :=
  { authMessage := fun _ => .error "not a message", attachFrame := fun _ => none, laneFrame := fun _ => none,
    hmac := fun _ _ => List.Vector.replicate 32 0, typed := nofun }

def hexFrame : AttachFrame :=
  ⟨String.ofList (List.replicate 64 'a'), String.ofList (List.replicate 66 '0'), 1,
    String.ofList (List.replicate 64 'b'), String.ofList (List.replicate 64 'c')⟩

def mintingWeather : AttachWeather where
  random := some (List.Vector.replicate 32 7)
  minted _ identity _ := some (⟨"lane", "key", identity, 0, 0, 0, 0, false⟩, .null)

def unreadableVerdict : Value :=
  .object [("identity", .string hexFrame.identity), ("key", .string "not-hex"), ("ok", .bool true)]

/-- The hub's key is not hexadecimal. The attach is refused, and the session is the one it built. -/
theorem late_refusal_built :
    ¬ AnswersAsActed ((attachMachine pollingPlatform attachLibraries).run ⟨.start (some (SessionState.new "sid")), []⟩
      [.attach 0 (some hexFrame) mintingWeather, .verdict 0 (.ok unreadableVerdict) mintingWeather]) := by
  intro acts
  have refused : endsOf 0 ((attachMachine pollingPlatform attachLibraries).run
      ⟨.start (some (SessionState.new "sid")), []⟩
      [.attach 0 (some hexFrame) mintingWeather, .verdict 0 (.ok unreadableVerdict) mintingWeather]).log =
        [.refused "mint-failed"] := by decide +kernel
  have built := acts.acted 0 (.refused "mint-failed") (by rw [refused]; exact List.mem_singleton_self _) nofun
  exact built (by decide +kernel)

end MessageRelay.Session
