import MessageRelay.Presence.FanOutAccount
import MessageRelay.Presence.RoomRecord
import MessageRelay.Send.Live
import MessageRelay.Session.Engine

/-! Who a public broadcast is for. An identity enters the registry where it joins a public room, the heartbeat of its
session renews the entry by time, and a broadcast pushes to the entries that are fresh. -/

namespace MessageRelay.Presence.Broadcast
open MessageRelay.Library MessageRelay.Session

def freshMs : Nat := 30 * 60 * 1000
def fanoutCap : Nat := 500
def fanoutConcurrency : Nat := 32
def fanoutWallBudgetMs : Nat := 15000

structure Subscriber where
  identity : String
  seenAtMs : Nat
  deriving DecidableEq, Repr

/-- One shard of the registry, an identity in it once. -/
abbrev Shard := Table Subscriber.identity

abbrev BroadcastRegistry := Char → Shard

def shardOf (identity : String) : Char := identity.toList.headD '0'

def shardNames : List Char := "0123456789abcdef".toList

/-- What a shard takes for an identity. -/
def registrable (identity : String) : Bool := identity.utf8ByteSize = 66 && identity.toList.all isAsciiHexdigit

/-- A registration that reaches its shard. -/
def registerIdentity (registry : BroadcastRegistry) (identity : String) (nowMs : Nat) : BroadcastRegistry :=
  if registrable identity then
    Function.update registry (shardOf identity) ((registry (shardOf identity)).upsert ⟨identity, nowMs⟩)
  else registry

def Subscriber.isFresh (nowMs : Nat) (e : Subscriber) : Bool := nowMs - e.seenAtMs ≤ freshMs

/-- The fresh identities of a shard, in the order of its keys. -/
def listFresh (shard : Shard) (nowMs : Nat) : List String :=
  ((shard.rows.filter (Subscriber.isFresh nowMs)).map Subscriber.identity).mergeSort (fun a b => a ≤ b)

/-- The stale entries go, where their deletes go through. -/
def prune (deletes : String → Bool) (shard : Shard) (nowMs : Nat) : Shard :=
  shard.keep (fun e => e.isFresh nowMs || !deletes e.identity)

/-- How a broadcast's reads of the shards end. A shard that is reached may still not be heard. -/
structure ShardReads where
  reached : Char → Bool
  heard : Char → Bool
  deletes : String → Bool

def gathered (registry : BroadcastRegistry) (reads : ShardReads) (nowMs : Nat) : List String :=
  shardNames.flatMap (fun c => if reads.reached c && reads.heard c then listFresh (registry c) nowMs else [])

/-- How a broadcast's pushes go, its shards read: whether the hubs' namespace is there, when the first may start, and how
the clock and the pushes answer. -/
structure Pushes where
  namespaced : Bool
  startMs : Nat
  world : World
  rounds : Nat

/-- The pushes to what the shards listed, cut at the ceiling. A push's index is its identity's. -/
def fanOutBroadcast (listed : List String) (pushes : Pushes) : Awaited :=
  if pushes.namespaced then
    fanOutWith pushes.world (listed.take fanoutCap).length fanoutConcurrency (pushes.startMs + fanoutWallBudgetMs)
      pushes.rounds
  else .ready ⟨[], []⟩

def Event.pushed (identities : List String) : Event → Option (String × Nat)
  | .started i attempt => identities[i]?.map (fun identity => (identity, attempt))
  | .read _ | .waiting _ _ | .ended _ _ _ => none

/-- The pushes a fan-out started, each to an identity as its first or its second attempt. -/
def pushed (identities : List String) (trace : List Event) : List (String × Nat) :=
  trace.filterMap (Event.pushed identities)

def pruned (registry : BroadcastRegistry) (reads : ShardReads) (nowMs : Nat) : BroadcastRegistry := fun c =>
  if c ∈ shardNames && reads.reached c then prune reads.deletes (registry c) nowMs else registry c

/-- The marker stands somewhere in the room's name. -/
def isPublicRoom (room : String) : Bool := room.toList.tails.any broadcastBoxMarker.toList.isPrefixOf

/-- What a session knows of its place in the registry. -/
structure Subscription where
  identity : Option String
  joinedRooms : List String
  refreshedAtMs : Option Nat

namespace Subscription

def due (s : Subscription) (nowMs : Nat) : Bool :=
  s.joinedRooms.any isPublicRoom && registryRefreshDue nowMs s.refreshedAtMs

/-- A join that the hub confirmed. A room that is new to the session stamps the refresh, public or not. -/
def joined (s : Subscription) (room : String) (nowMs : Nat) : Subscription :=
  if s.joinedRooms.contains room then s
  else { s with joinedRooms := s.joinedRooms ++ [room], refreshedAtMs := some nowMs }

def left (s : Subscription) (room : String) : Subscription :=
  { s with joinedRooms := s.joinedRooms.filter (fun r => r != room) }

def ofAttachment (att : WsAttachment) : Subscription :=
  ⟨att.auth.verifiedIdentityKey, att.joinedRooms, att.registryRefreshedAtMs⟩

def ofState (s : SessionState) : Subscription :=
  ⟨s.auth.verifiedIdentityKey, s.joinedRooms, s.registryRefreshedAtMs⟩

end Subscription

/-! One session under watch, and the registry with everything else that happens to it. -/

/-- The session, the registry, the clock, the times of the last ping and of the last join of a room new to the session,
and how many stamps in a row came without a registration. -/
structure Watch where
  socket : Subscription
  registry : BroadcastRegistry
  clockMs : Nat
  pingMs : Nat
  enteredMs : Nat
  missed : Nat

inductive Happening where
  /-- The heartbeat's ping. A registration it makes reaches the registry, or is lost. -/
  | pinged (landed : Bool)
  | joined (room : String) (landed : Bool)
  | left (room : String)
  /-- A registration through another session or hub. -/
  | registered (identity : String)
  | broadcast (reads : ShardReads) (pushes : Pushes)

structure WatchInput where
  nowMs : Nat
  happening : Happening

inductive WatchEvent where
  | registered (identity : String) (nowMs : Nat)
  | fannedOut (reads : ShardReads) (pushes : Pushes) (nowMs : Nat) (listed : List String)

/-- A registration for a session that is stamped or not. -/
def Watch.register (w : Watch) (identity : Option String) (stamped landed : Bool) : Watch × List WatchEvent :=
  match identity with
  | some identity =>
    if landed then
      ({ w with registry := registerIdentity w.registry identity w.clockMs, missed := if stamped then 0 else w.missed },
        [.registered identity w.clockMs])
    else ({ w with missed := if stamped then w.missed + 1 else w.missed }, [])
  | none => ({ w with missed := if stamped then w.missed + 1 else w.missed }, [])

def watchStep (w : Watch) (input : WatchInput) : Watch × List WatchEvent :=
  let w := { w with clockMs := input.nowMs }
  match input.happening with
  | .pinged landed =>
    let w := { w with pingMs := input.nowMs }
    if w.socket.due input.nowMs then
      { w with socket := { w.socket with refreshedAtMs := some input.nowMs } }.register w.socket.identity true landed
    else (w, [])
  | .joined room landed =>
    { w with
      socket := w.socket.joined room input.nowMs
      enteredMs := if w.socket.joinedRooms.contains room then w.enteredMs else input.nowMs }.register
      (if isPublicRoom room then w.socket.identity else none) (!w.socket.joinedRooms.contains room) landed
  | .left room => ({ w with socket := w.socket.left room }, [])
  | .registered identity =>
    ({ w with registry := registerIdentity w.registry identity input.nowMs }, [.registered identity input.nowMs])
  | .broadcast reads pushes =>
    ({ w with registry := pruned w.registry reads input.nowMs },
      [.fannedOut reads pushes input.nowMs (gathered w.registry reads input.nowMs)])

def watchMachine : Machine Watch WatchInput WatchEvent := ⟨watchStep⟩

/-! The session's handlers are the subscription's. -/

section Sessions
variable {platform : Platform} {e : Engine} {a : Ambient}

/-- A heartbeat that pings stamps and registers as the subscription does. -/
theorem alarm_pinged {att : WsAttachment} (attached : e.attachment = some att) (live : att.sid ≠ "")
    (socket : att.transport = .webSocket)
    (alive : heartbeatOnAlarm a.nowMs att.awaitingPongSinceMs pingTimeoutMs = .ping) (sent : a.sent = true)
    (fits : ∀ att, platform.fits att = true)
    (marked : ∀ room ∈ att.joinedRooms, decide ((room.splitOn broadcastBoxMarker).length > 1) = isPublicRoom room) :
    let s := Subscription.ofAttachment att
    let out := e.alarm platform a
    out.attachment.map Subscription.ofAttachment =
        some (if s.due a.nowMs then { s with refreshedAtMs := some a.nowMs } else s) ∧
      out.log = e.log ++ [.pinged] ++
        (if s.due a.nowMs then s.identity.toList.map SessionEvent.registryRefreshed else []) := by
  intro s out
  have same : s.due a.nowMs = (att.joinedRooms.any (fun room => (room.splitOn broadcastBoxMarker).length > 1) &&
      registryRefreshDue a.nowMs att.registryRefreshedAtMs) := by
    have rooms : att.joinedRooms.any isPublicRoom =
        att.joinedRooms.any (fun room => (room.splitOn broadcastBoxMarker).length > 1) := by
      rw [Bool.eq_iff_iff, List.any_eq_true, List.any_eq_true]
      exact exists_congr (fun room => and_congr_right (fun member => by rw [marked room member]))
    rw [← rooms]
    rfl
  simp only [out, Engine.alarm, attached]
  rw [if_neg (by simp [live, socket]), alive]
  simp only [sent, ← same, Engine.serializeAttachment, fits, if_true]
  cases who : att.auth.verifiedIdentityKey with
  | none => cases due : s.due a.nowMs <;> simp [Engine.modify, Engine.emit, s, Subscription.ofAttachment, who]
  | some identity => cases due : s.due a.nowMs <;> simp [Engine.modify, Engine.emit, s, Subscription.ofAttachment, who]

/-- What a session records of a confirmed join is what the subscription does. -/
theorem recordRooms_joined {s : SessionState} (inMemory : e.inner = some s) (room : String)
    {outbound : List OutboundEvent} (confirmed : outbound.any (fun ev => ev.eventName == "joinedRoom") = true)
    (nowMs : Nat) :
    (e.recordRooms platform "joinRoom" (.string room) outbound nowMs).inner.map Subscription.ofState =
      some ((Subscription.ofState s).joined room nowMs) := by
  simp only [Engine.recordRooms, inMemory, recordRoomMembership, Value.asStr, confirmed]
  have kept (s' : SessionState) : (e.keepState platform s').inner = some s' := by
    simp only [Engine.keepState, Engine.persistToWsAttachment]
    split
    · rename_i there _
      simp only [Option.some.injEq] at there
      unfold Engine.serializeAttachment
      split <;> rfl
    · rfl
  by_cases there : room ∈ s.joinedRooms
  · simp [inMemory, there, Subscription.joined, Subscription.ofState]
  · simp [kept, there, Subscription.joined, Subscription.ofState]

end Sessions

/-! What an entry says. -/

theorem find?_registerIdentity (registry : BroadcastRegistry) (identity other : String) (nowMs : Nat) :
    (registerIdentity registry identity nowMs (shardOf other)).find? other =
      if identity = other ∧ registrable identity = true then some ⟨identity, nowMs⟩
      else (registry (shardOf other)).find? other := by
  unfold registerIdentity
  by_cases taken : registrable identity = true
  · rw [if_pos taken]
    by_cases sameShard : shardOf other = shardOf identity
    · rw [sameShard, Function.update_self, Table.find?_upsert]
      simp only [taken, and_true]
    · rw [Function.update_of_ne sameShard, if_neg]
      rintro ⟨rfl, -⟩
      exact sameShard rfl
  · rw [if_neg taken, if_neg (fun both => taken both.2)]

theorem mem_listFresh {shard : Shard} {nowMs : Nat} {identity : String} :
    identity ∈ listFresh shard nowMs ↔ ∃ e ∈ shard.rows, e.isFresh nowMs = true ∧ e.identity = identity := by
  simp [listFresh, and_assoc]

theorem nodup_listFresh (shard : Shard) (nowMs : Nat) : (listFresh shard nowMs).Nodup := by
  rw [listFresh, (List.mergeSort_perm _ _).nodup_iff]
  exact (List.filter_sublist.map _).nodup shard.unique

theorem mem_registerIdentity {registry : BroadcastRegistry} {identity : String} {nowMs : Nat} {shard : Char}
    {e : Subscriber} (there : e ∈ (registerIdentity registry identity nowMs shard).rows) :
    e ∈ (registry shard).rows ∨ e = ⟨identity, nowMs⟩ ∧ shard = shardOf identity := by
  unfold registerIdentity at there
  split at there
  · by_cases same : shard = shardOf identity
    · subst same
      rw [Function.update_self, Table.rows_upsert] at there
      rcases List.mem_append.mp there with old | new
      · exact .inl (List.mem_of_mem_filter old)
      · exact .inr ⟨List.mem_singleton.mp new, rfl⟩
    · rw [Function.update_of_ne same] at there
      exact .inl there
  · exact .inl there

theorem mem_pruned {registry : BroadcastRegistry} {reads : ShardReads} {nowMs : Nat} {shard : Char} {e : Subscriber}
    (there : e ∈ (pruned registry reads nowMs shard).rows) : e ∈ (registry shard).rows := by
  unfold pruned at there
  split at there
  · exact List.mem_of_mem_filter there
  · exact there

/-- What is fresh in a shard that is heard is gathered, and nothing else. -/
theorem mem_gathered {registry : BroadcastRegistry} {reads : ShardReads} {nowMs : Nat} {identity : String} :
    identity ∈ gathered registry reads nowMs ↔ ∃ shard ∈ shardNames, reads.reached shard = true ∧
      reads.heard shard = true ∧ ∃ e ∈ (registry shard).rows, e.isFresh nowMs = true ∧ e.identity = identity := by
  simp only [gathered, List.mem_flatMap]
  constructor
  · rintro ⟨shard, named, listed⟩
    split at listed
    · rename_i answered
      obtain ⟨reached, heard⟩ := Bool.and_eq_true_iff.mp answered
      exact ⟨shard, named, reached, heard, mem_listFresh.mp listed⟩
    · cases listed
  · rintro ⟨shard, named, reached, heard, listed⟩
    refine ⟨shard, named, ?_⟩
    rw [reached, heard]
    exact mem_listFresh.mpr listed

theorem length_gathered (registry : BroadcastRegistry) (reads : ShardReads) (nowMs : Nat) :
    (gathered registry reads nowMs).length = (shardNames.map (fun c =>
      if reads.reached c && reads.heard c then (registry c).rows.countP (Subscriber.isFresh nowMs) else 0)).sum := by
  rw [gathered, List.length_flatMap]
  congr 2
  funext c
  split
  · simp [listFresh, List.countP_eq_length_filter]
  · rfl

/-- Every entry is in the shard of its identity. -/
def Placed (registry : BroadcastRegistry) : Prop := ∀ shard, ∀ e ∈ (registry shard).rows, shardOf e.identity = shard

theorem nodup_gathered {registry : BroadcastRegistry} (placed : Placed registry) (reads : ShardReads) (nowMs : Nat) :
    (gathered registry reads nowMs).Nodup := by
  rw [gathered, List.nodup_flatMap]
  constructor
  · intro shard _
    split
    · exact nodup_listFresh _ _
    · exact List.nodup_nil
  · have apart : shardNames.Nodup := by decide
    refine apart.imp ?_
    intro shard other ne identity here there
    simp only at here there
    split at here
    · split at there
      · obtain ⟨e, inside, -, rfl⟩ := mem_listFresh.mp here
        obtain ⟨e', inside', -, same⟩ := mem_listFresh.mp there
        have first := placed shard e inside
        have second := placed other e' inside'
        rw [same, first] at second
        exact ne second
      · cases there
    · cases here

/-! Over a run. -/

/-- What a step does to the registry, and what it tells. -/
theorem watchStep_cases (w : Watch) (input : WatchInput) :
    let out := watchStep w input
    (out.1.registry = w.registry ∧ out.2 = []) ∨
      (∃ identity, out.1.registry = registerIdentity w.registry identity input.nowMs ∧
        out.2 = [.registered identity input.nowMs]) ∨
      ∃ reads pushes, out.1.registry = pruned w.registry reads input.nowMs ∧
        out.2 = [.fannedOut reads pushes input.nowMs (gathered w.registry reads input.nowMs)] := by
  have registers (w : Watch) (identity : Option String) (stamped landed : Bool) :
      let out := w.register identity stamped landed
      (out.1.registry = w.registry ∧ out.2 = []) ∨
        ∃ identity, out.1.registry = registerIdentity w.registry identity w.clockMs ∧
          out.2 = [.registered identity w.clockMs] := by
    cases identity with
    | none => exact .inl ⟨rfl, rfl⟩
    | some identity =>
      cases landed with
      | false => exact .inl ⟨rfl, rfl⟩
      | true => exact .inr ⟨identity, rfl, rfl⟩
  obtain ⟨nowMs, happening⟩ := input
  cases happening with
  | pinged landed =>
    simp only [watchStep]
    split
    · exact (registers _ _ true landed).imp id .inl
    · exact .inl ⟨rfl, rfl⟩
  | joined room landed => exact (registers _ _ _ landed).imp id .inl
  | left room => exact .inl ⟨rfl, rfl⟩
  | registered identity => exact .inr (.inl ⟨identity, rfl, rfl⟩)
  | broadcast reads pushes => exact .inr (.inr ⟨reads, pushes, rfl, rfl⟩)

/-- Each entry was registered, and each broadcast was for identities registered within the window. -/
structure Sound (c : Config Watch WatchEvent) : Prop where
  placed : Placed c.state.registry
  told : ∀ shard, ∀ e ∈ (c.state.registry shard).rows, .registered e.identity e.seenAtMs ∈ c.log
  listed : ∀ reads pushes nowMs listed, .fannedOut reads pushes nowMs listed ∈ c.log →
    listed.Nodup ∧ ∀ identity ∈ listed, ∃ t, .registered identity t ∈ c.log ∧ nowMs - t ≤ freshMs

theorem Sound.step {c : Config Watch WatchEvent} (sound : Sound c) (input : WatchInput) :
    Sound (watchMachine.advance c input) := by
  have later (identity : String) (t : Nat) (before : .registered identity t ∈ c.log) :
      .registered identity t ∈ (watchMachine.advance c input).log := List.mem_append_left _ before
  have old (reads : ShardReads) (pushes : Pushes) (nowMs : Nat) (listed : List String)
      (before : WatchEvent.fannedOut reads pushes nowMs listed ∈ c.log) : listed.Nodup ∧ ∀ identity ∈ listed,
        ∃ t, .registered identity t ∈ (watchMachine.advance c input).log ∧ nowMs - t ≤ freshMs := by
    obtain ⟨once, fresh⟩ := sound.listed reads pushes nowMs listed before
    refine ⟨once, fun identity member => ?_⟩
    obtain ⟨t, registered, close⟩ := fresh identity member
    exact ⟨t, later identity t registered, close⟩
  rcases watchStep_cases c.state input with ⟨same, quiet⟩ | ⟨identity, registers, told⟩ | ⟨reads, pushes, prunes, told⟩
  · refine ⟨?_, ?_, ?_⟩
    · simp only [Machine.advance, watchMachine, same]
      exact sound.placed
    · simp only [Machine.advance, watchMachine, same]
      exact fun shard e there => List.mem_append_left _ (sound.told shard e there)
    · intro reads pushes nowMs listed now
      refine old reads pushes nowMs listed ?_
      simpa [Machine.advance, watchMachine, quiet] using now
  · refine ⟨?_, ?_, ?_⟩
    · simp only [Machine.advance, watchMachine, registers]
      intro shard e there
      rcases mem_registerIdentity there with before | ⟨rfl, rfl⟩
      · exact sound.placed shard e before
      · rfl
    · simp only [Machine.advance, watchMachine, registers, told]
      intro shard e there
      rcases mem_registerIdentity there with before | ⟨rfl, rfl⟩
      · exact List.mem_append_left _ (sound.told shard e before)
      · exact List.mem_append_right _ (List.mem_singleton.mpr rfl)
    · intro reads pushes nowMs listed now
      refine old reads pushes nowMs listed ?_
      simpa [Machine.advance, watchMachine, told] using now
  · refine ⟨?_, ?_, ?_⟩
    · simp only [Machine.advance, watchMachine, prunes]
      exact fun shard e there => sound.placed shard e (mem_pruned there)
    · simp only [Machine.advance, watchMachine, prunes]
      exact fun shard e there => List.mem_append_left _ (sound.told shard e (mem_pruned there))
    · intro reads' pushes' nowMs listed pushed
      simp only [Machine.advance, watchMachine, told, List.mem_append, List.mem_singleton] at pushed
      rcases pushed with before | now
      · exact old reads' pushes' nowMs listed before
      · cases now
        refine ⟨nodup_gathered sound.placed reads input.nowMs, ?_⟩
        intro identity member
        obtain ⟨shard, -, -, -, e, there, fresh, rfl⟩ := mem_gathered.mp member
        exact ⟨e.seenAtMs, later _ _ (sound.told shard e there), of_decide_eq_true fresh⟩

/-- What the pushes of a broadcast keep, whatever the clock and the hubs do. -/
structure PushedTo (identities : List String) (trace : List Event) : Prop where
  addressed : ∀ identity attempt, (identity, attempt) ∈ pushed identities trace → identity ∈ identities
  once : (pushed identities trace).Nodup
  /-- A push is an identity's first, or its second after the first timed out. -/
  retried : ∀ identity attempt, (identity, attempt) ∈ pushed identities trace → attempt = 0 ∨
    attempt = 1 ∧ ∃ i before, identities[i]? = some identity ∧ before ++ [.started i 1] <+: trace ∧
      .ended i 0 .timedOut ∈ before

theorem mem_pushed {identities : List String} {trace : List Event} {identity : String} {attempt : Nat} :
    (identity, attempt) ∈ pushed identities trace ↔
      ∃ i, identities[i]? = some identity ∧ .started i attempt ∈ trace := by
  rw [pushed, List.mem_filterMap]
  constructor
  · rintro ⟨event, there, goes⟩
    cases event with
    | started i other =>
      obtain ⟨self, listed, same⟩ := Option.map_eq_some_iff.mp goes
      cases same
      exact ⟨i, listed, there⟩
    | read now | waiting i other | ended i other o => cases goes
  · rintro ⟨i, listed, there⟩
    exact ⟨_, there, by rw [Event.pushed, listed]; rfl⟩

theorem pushedTo_of_accounted {identities : List String} (distinct : identities.Nodup) {width deadline : Nat}
    {trace : List Event} (accounted : Accounted identities.length width deadline trace) :
    PushedTo identities trace where
  addressed := by
    intro identity attempt there
    obtain ⟨i, listed, -⟩ := mem_pushed.mp there
    exact List.mem_of_getElem? listed
  once := by
    rw [List.nodup_iff_count_le_one]
    rintro ⟨identity, attempt⟩
    by_cases there : (identity, attempt) ∈ pushed identities trace
    · obtain ⟨i, listed, -⟩ := mem_pushed.mp there
      rw [pushed, List.count_filterMap]
      refine (List.countP_mono_left ?_).trans (accounted.once i attempt)
      intro event _ goes
      rw [beq_iff_eq] at goes ⊢
      cases event with
      | started j other =>
        obtain ⟨self, again, same⟩ := Option.map_eq_some_iff.mp goes
        cases same
        have inside : j < identities.length := (List.getElem?_eq_some_iff.mp again).1
        rw [(List.getElem?_inj inside distinct).mp (again.trans listed.symm)]
      | read now | waiting j other | ended j other o => cases goes
    · rw [List.count_eq_zero_of_not_mem there]
      exact Nat.zero_le 1
  retried := by
    intro identity attempt there
    obtain ⟨i, listed, begun⟩ := mem_pushed.mp there
    rcases (accounted.attempts i attempt begun).2 with first | rfl
    · exact .inl first
    · obtain ⟨before, after, parts⟩ := List.append_of_mem begun
      refine .inr ⟨rfl, i, before, listed, ⟨after, ?_⟩, accounted.retried before i after parts⟩
      rw [parts, List.append_assoc]
      rfl

theorem fanOutBroadcast_pushedTo {listed : List String} (distinct : listed.Nodup) (pushes : Pushes) :
    PushedTo (listed.take fanoutCap) (fanOutBroadcast listed pushes).run.trace := by
  rw [fanOutBroadcast]
  split
  · exact pushedTo_of_accounted ((List.take_sublist _ _).nodup distinct)
      ((fanOutWith_accounts pushes.world _ fanoutConcurrency _).1 pushes.rounds).1
  · exact ⟨fun _ _ there => (by cases there), List.nodup_nil, fun _ _ there => (by cases there)⟩

theorem broadcast_told (c : Config Watch WatchEvent) (reads : ShardReads) (pushes : Pushes) (nowMs : Nat) :
    .fannedOut reads pushes nowMs (gathered c.state.registry reads nowMs) ∈
      (watchMachine.run c [⟨nowMs, .broadcast reads pushes⟩]).log :=
  List.mem_append_right _ (List.mem_singleton.mpr rfl)

def subscriberKey : String := "02" ++ String.ofList (List.replicate 64 'b')

def everyShard : ShardReads := ⟨fun _ => true, fun _ => true, fun _ => true⟩

/-- Hubs that time out once and answer the second push, at one instant. -/
def slowHubs : Pushes :=
  ⟨true, 240000, ⟨fun _ => 240000, fun _ _ attempt => some (if attempt = 0 then .timedOut else .delivered)⟩, 1⟩

def tipRoom : String := "02bb-broadcast-low-tip"

/-- A session that has joined nothing. -/
def unjoined : Watch := ⟨⟨some subscriberKey, [], none⟩, fun _ => Table.empty, 0, 0, 0, 0⟩

/-- Pings, the last of which finds the refresh due and loses it. -/
def lostRefresh : List WatchInput :=
  [⟨50000, .pinged true⟩, ⟨100000, .pinged true⟩, ⟨150000, .pinged true⟩, ⟨200000, .pinged false⟩]

/-- A broadcast addresses an identity once, and only where it registered within the window. It pushes to no other, and
to one a second time only after the first push timed out. -/
theorem fannedOut_registered (socket : Subscription) (inputs : List WatchInput) (reads : ShardReads) (pushes : Pushes)
    (nowMs : Nat) (listed : List String) :
    let c := watchMachine.run ⟨⟨socket, fun _ => Table.empty, 0, 0, 0, 0⟩, []⟩ inputs
    .fannedOut reads pushes nowMs listed ∈ c.log →
      (listed.Nodup ∧ ∀ identity ∈ listed, ∃ t, .registered identity t ∈ c.log ∧ nowMs - t ≤ freshMs) ∧
      PushedTo (listed.take fanoutCap) (fanOutBroadcast listed pushes).run.trace := by
  intro c told
  have sound : Sound c := watchMachine.run_kept (fun _ input sound => sound.step input)
    ⟨fun _ _ there => (by cases there), fun _ _ there => (by cases there), fun _ _ _ _ there => (by cases there)⟩ inputs
  have registered := sound.listed reads pushes nowMs listed told
  exact ⟨registered, fanOutBroadcast_pushedTo registered.1 pushes⟩

theorem lostRefresh_once :
    let listed := gathered
      (watchMachine.run ⟨unjoined, []⟩ (⟨0, .joined tipRoom true⟩ :: lostRefresh)).state.registry everyShard 240000
    (pushed (listed.take fanoutCap) (fanOutBroadcast listed slowHubs).run.trace).Nodup := by
  refine (fannedOut_registered ⟨some subscriberKey, [], none⟩
    ((⟨0, .joined tipRoom true⟩ :: lostRefresh) ++ [⟨240000, .broadcast everyShard slowHubs⟩]) everyShard slowHubs
    240000 _ ?_).2.once
  rw [Machine.run_append]
  exact broadcast_told _ everyShard slowHubs 240000

end MessageRelay.Presence.Broadcast
