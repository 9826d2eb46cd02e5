import MessageRelay.Library.Machine
import MessageRelay.Library.Table
import MessageRelay.Presence.RoomRecord
import MessageRelay.Session.State

/-! A hub's registry of socket.io sessions, kept under `socketio_sub:<sid>`, and the operations on it. Every operation
here is one run of storage calls, which no other request of the hub interrupts; what the calls answered is an input. -/

namespace MessageRelay.Presence
open Library

def socketioSubLeaseMs : Nat := 24 * Session.pingIntervalMs
def socketioSubLeaseRefreshMs : Nat := 6 * Session.pingIntervalMs

structure SocketIoRegistryEntry where
  sid : String
  registeredAtMs : Nat
  joinedRooms : List String
  expiresAtMs : Option Nat
  leftRooms : List String
  deriving DecidableEq, Repr

/-- The bytes of an entry's JSON outside its two lists of rooms. -/
def SocketIoRegistryEntry.base (entry : SocketIoRegistryEntry) : Nat :=
  69 + jsonStringBytes entry.sid + (Nat.toDigits 10 entry.registeredAtMs).length +
    (match entry.expiresAtMs with
    | some t => (Nat.toDigits 10 t).length
    | none => 4)

def SocketIoRegistryEntry.rooms (entry : SocketIoRegistryEntry) : RoomRecord :=
  ⟨entry.joinedRooms, entry.leftRooms⟩

def SocketIoRegistryEntry.setRooms (entry : SocketIoRegistryEntry) (rooms : RoomRecord) : SocketIoRegistryEntry :=
  { entry with joinedRooms := rooms.joined, leftRooms := rooms.left }

abbrev Registry := Table SocketIoRegistryEntry.sid

inductive LeaseVerdict where
  | live
  | stamp (expiresAtMs : Nat)
  | expired
  deriving DecidableEq, Repr

def leaseVerdict (expiresAtMs : Option Nat) (nowMs : Nat) : LeaseVerdict :=
  match expiresAtMs with
  | none => .stamp (nowMs + socketioSubLeaseMs)
  | some t => if t ≤ nowMs then .expired else .live

def leaseRenewalDue (expiresAtMs : Option Nat) (nowMs : Nat) : Bool :=
  match expiresAtMs with
  | none => true
  | some t => t < nowMs + socketioSubLeaseMs - socketioSubLeaseRefreshMs

/-- What the list makes of a live entry: one without a lease is given one. -/
def stampLease (nowMs : Nat) (entry : SocketIoRegistryEntry) : SocketIoRegistryEntry :=
  match leaseVerdict entry.expiresAtMs nowMs with
  | .stamp t => { entry with expiresAtMs := some t }
  | _ => entry

theorem stampLease_sid (nowMs : Nat) (entry : SocketIoRegistryEntry) : (stampLease nowMs entry).sid = entry.sid := by
  unfold stampLease
  split <;> rfl

theorem stampLease_joinedRooms (nowMs : Nat) (entry : SocketIoRegistryEntry) :
    (stampLease nowMs entry).joinedRooms = entry.joinedRooms := by
  unfold stampLease
  split <;> rfl

def expired (nowMs : Nat) (entry : SocketIoRegistryEntry) : Bool :=
  leaseVerdict entry.expiresAtMs nowMs = .expired

/-- The live entries of a list. -/
def listLive (nowMs : Nat) (registry : Registry) : Registry :=
  (registry.keep (fun e => !expired nowMs e)).map (stampLease nowMs) (stampLease_sid nowMs)

/-- The entries whose lease lapsed. -/
def listLapsed (nowMs : Nat) (registry : Registry) : List SocketIoRegistryEntry :=
  registry.rows.filter (expired nowMs)

/-- What a list writes: stamps, and the deletes of lapsed entries. `writes` says of each sid whether its call took. -/
def listWrites (nowMs : Nat) (writes : String → Bool) (registry : Registry) : Registry :=
  (registry.keep (fun e => !(expired nowMs e && writes e.sid))).map
    (fun e => if writes e.sid then stampLease nowMs e else e)
    (by
      intro e
      split
      · exact stampLease_sid nowMs e
      · rfl)

def freshSocketioEntry (sid : String) (nowMs : Nat) : SocketIoRegistryEntry :=
  { sid, registeredAtMs := nowMs, joinedRooms := [], expiresAtMs := none, leftRooms := [] }

/-- One operation's storage calls: whether the read answered, and whether the write took. -/
structure Calls where
  read : Bool
  write : Bool
  deriving DecidableEq, Repr

def Registry.get (registry : Registry) (calls : Calls) (sid : String) : Option SocketIoRegistryEntry :=
  if calls.read then registry.find? sid else none

def Registry.put (registry : Registry) (calls : Calls) (entry : SocketIoRegistryEntry) : Registry :=
  if calls.write then registry.upsert entry else registry

/-- The register route with `lease: true`. An entry that is gone is not recreated. -/
def renewLease (registry : Registry) (calls : Calls) (sid : String) (nowMs : Nat) : Registry :=
  match registry.get calls sid with
  | none => registry
  | some entry => registry.put calls { entry with expiresAtMs := some (nowMs + socketioSubLeaseMs) }

/-- The entry a register writes: it keeps the rooms of the one it read. -/
def registered (existing : Option SocketIoRegistryEntry) (sid : String) (nowMs : Nat) : SocketIoRegistryEntry where
  sid := sid
  registeredAtMs := nowMs
  joinedRooms := (existing.map SocketIoRegistryEntry.joinedRooms).getD []
  expiresAtMs := some (nowMs + socketioSubLeaseMs)
  leftRooms := (existing.map SocketIoRegistryEntry.leftRooms).getD []

def handleSocketioRegister (registry : Registry) (calls : Calls) (sid : String) (nowMs : Nat) : Registry :=
  if sid = "" then registry
  else registry.put calls (registered (registry.get calls sid) sid nowMs)

/-- The entry a room change writes: the one stored or a fresh one, changed, with its lease renewed. -/
def changed (mutate : Nat → RoomRecord → Option RoomRecord) (registry : Registry) (sid : String) (nowMs : Nat) :
    SocketIoRegistryEntry :=
  let entry := (registry.find? sid).getD (freshSocketioEntry sid nowMs)
  { entry.setRooms ((mutate entry.base entry.rooms).getD entry.rooms) with
    expiresAtMs := some (nowMs + socketioSubLeaseMs) }

/-- Where the read failed, the change is given up. -/
def updateSocketioRooms (mutate : Nat → RoomRecord → Option RoomRecord) (registry : Registry) (calls : Calls)
    (sid : String) (nowMs : Nat) : Registry :=
  if sid = "" || !calls.read then registry
  else registry.put calls (changed mutate registry sid nowMs)

def joinRoom (registry : Registry) (calls : Calls) (sid room : String) (nowMs : Nat) : Registry :=
  updateSocketioRooms (fun base record => recordJoin base record room) registry calls sid nowMs

def leaveRoom (registry : Registry) (calls : Calls) (sid room : String) (nowMs : Nat) : Registry :=
  updateSocketioRooms (fun base record => recordLeave base record room) registry calls sid nowMs

def handleSocketioUnregister (registry : Registry) (calls : Calls) (sid : String) : Registry :=
  if calls.write then registry.keep (fun e => e.sid ≠ sid) else registry

/-- A session's answer to a broadcast: the status, and two fields of its JSON. -/
structure Answer where
  status : Nat
  delivered : Option Nat
  reason : Option String
  deriving DecidableEq, Repr

def isTombstone (answer : Answer) : Bool :=
  answer.status = 200 && answer.delivered = some 0 && answer.reason = some "no session"

inductive SessionOutcome where
  | answered (answer : Answer)
  | failed
  | timedOut
  deriving DecidableEq, Repr

/-- One session's turn in the loop that closes a fan-out: its outcome, the clock when its lease is looked at and when
it is renewed, and whether its storage call takes. -/
structure Turn where
  outcome : SessionOutcome
  dueAtMs : Nat
  renewedAtMs : Nat
  write : Bool
  deriving DecidableEq, Repr

/-- The fan-out drops the entry of a session that failed or that answers as a tombstone. -/
def Turn.drops (turn : Turn) : Bool :=
  match turn.outcome with
  | .answered answer => isTombstone answer
  | .failed => true
  | .timedOut => false

/-- A delivered answer renews the lease where it is due. -/
def Turn.renews (turn : Turn) (entry : SocketIoRegistryEntry) : Bool :=
  match turn.outcome with
  | .answered answer =>
    !isTombstone answer && 0 < answer.delivered.getD 0 && leaseRenewalDue entry.expiresAtMs turn.dueAtMs
  | _ => false

theorem Turn.not_drops_of_renews {turn : Turn} {entry : SocketIoRegistryEntry} (renews : turn.renews entry = true) :
    turn.drops = false := by
  unfold Turn.renews at renews
  unfold Turn.drops
  split at renews
  · simp_all
  · cases renews

/-- What the loop writes for one entry of its list. The renewed entry is the listed one. -/
def writeBack (turns : String → Turn) (registry : Registry) (entry : SocketIoRegistryEntry) : Registry :=
  let turn := turns entry.sid
  if !turn.write then registry
  else if turn.drops then registry.keep (fun e => e.sid ≠ entry.sid)
  else if turn.renews entry then
    registry.upsert { entry with expiresAtMs := some (turn.renewedAtMs + socketioSubLeaseMs) }
  else registry

/-- The loop after the broadcasts of `fan_out_socketio`. -/
def fanOutSocketio (turns : String → Turn) (entries : Registry) (registry : Registry) : Registry :=
  entries.rows.foldl (writeBack turns) registry

/-! What each operation leaves under a sid. -/

theorem find?_put (registry : Registry) (calls : Calls) (entry : SocketIoRegistryEntry) (sid : String) :
    (registry.put calls entry).find? sid =
      if calls.write ∧ entry.sid = sid then some entry else registry.find? sid := by
  unfold Registry.put
  cases calls.write with
  | false => simp
  | true => simp [Table.find?_upsert]

theorem changed_sid (mutate : Nat → RoomRecord → Option RoomRecord) (registry : Registry) (sid : String)
    (nowMs : Nat) : (changed mutate registry sid nowMs).sid = sid := by
  unfold changed
  cases found : registry.find? sid with
  | none => rfl
  | some entry =>
    have named : entry.sid = sid := Table.key_of_find? found
    exact named

theorem find?_updateSocketioRooms (mutate : Nat → RoomRecord → Option RoomRecord) (registry : Registry)
    (calls : Calls) (sid : String) (nowMs : Nat) (other : String) :
    (updateSocketioRooms mutate registry calls sid nowMs).find? other =
      if (sid ≠ "" ∧ calls.read = true ∧ calls.write = true) ∧ sid = other
      then some (changed mutate registry sid nowMs) else registry.find? other := by
  unfold updateSocketioRooms
  by_cases named : sid = ""
  · simp [named]
  · cases answered : calls.read with
    | false => simp
    | true => simp [named, find?_put, changed_sid]

theorem find?_handleSocketioRegister (registry : Registry) (calls : Calls) (sid : String) (nowMs : Nat)
    (other : String) :
    (handleSocketioRegister registry calls sid nowMs).find? other =
      if (sid ≠ "" ∧ calls.write = true) ∧ sid = other
      then some (registered (registry.get calls sid) sid nowMs) else registry.find? other := by
  unfold handleSocketioRegister
  by_cases named : sid = ""
  · simp [named]
  · simp [named, find?_put, registered]

theorem find?_handleSocketioUnregister (registry : Registry) (calls : Calls) (sid other : String) :
    (handleSocketioUnregister registry calls sid).find? other =
      if calls.write ∧ sid = other then none else registry.find? other := by
  unfold handleSocketioUnregister
  cases calls.write with
  | false => simp
  | true => simpa using Table.find?_delete registry sid other

/-- A renewal changes nothing but the lease of an entry that is there. -/
theorem find?_renewLease (registry : Registry) (calls : Calls) (sid : String) (nowMs : Nat) (other : String) :
    ∃ lease : SocketIoRegistryEntry → Option Nat,
      (renewLease registry calls sid nowMs).find? other =
        (registry.find? other).map (fun e => { e with expiresAtMs := lease e }) := by
  have same : ∃ lease : SocketIoRegistryEntry → Option Nat,
      registry.find? other = (registry.find? other).map (fun e => { e with expiresAtMs := lease e }) :=
    ⟨SocketIoRegistryEntry.expiresAtMs, by simp⟩
  unfold renewLease Registry.get
  cases calls.read with
  | false => exact same
  | true =>
    cases found : registry.find? sid with
    | none => simpa [found] using same
    | some entry =>
      simp only [if_true, find?_put]
      split
      · rename_i own
        have named := Table.key_of_find? found
        obtain rfl : sid = other := named.symm.trans own.2
        exact ⟨fun _ => some (nowMs + socketioSubLeaseMs), by rw [found]; rfl⟩
      · exact same

theorem find?_listWrites (nowMs : Nat) (writes : String → Bool) (registry : Registry) (sid : String) :
    (listWrites nowMs writes registry).find? sid =
      (registry.find? sid).bind (fun e =>
        if expired nowMs e ∧ writes sid then none else some (if writes sid then stampLease nowMs e else e)) := by
  rw [listWrites, Table.find?_map, Table.find?_keep]
  cases found : registry.find? sid with
  | none => rfl
  | some entry =>
    have named := Table.key_of_find? found
    cases lapsed : expired nowMs entry <;> cases wrote : writes sid <;> simp [Option.filter, lapsed, named, wrote]

/-- What one turn of the loop leaves under the sid of its entry. -/
def turned (turn : Turn) (entry : SocketIoRegistryEntry) (stored : Option SocketIoRegistryEntry) :
    Option SocketIoRegistryEntry :=
  if !turn.write then stored
  else if turn.drops then none
  else if turn.renews entry then some { entry with expiresAtMs := some (turn.renewedAtMs + socketioSubLeaseMs) }
  else stored

theorem turned_of_renews {turn : Turn} {entry : SocketIoRegistryEntry} (write : turn.write = true)
    (renews : turn.renews entry = true) (stored : Option SocketIoRegistryEntry) :
    turned turn entry stored = some { entry with expiresAtMs := some (turn.renewedAtMs + socketioSubLeaseMs) } := by
  simp [turned, write, Turn.not_drops_of_renews renews, renews]

theorem turned_of_drops {turn : Turn} (drops : turn.drops = true) (entry : SocketIoRegistryEntry) :
    turned turn entry none = none := by
  cases wrote : turn.write <;> simp [turned, wrote, drops]

theorem turned_of_idle {turn : Turn} {entry : SocketIoRegistryEntry} (keeps : turn.drops = false)
    (idle : ¬(turn.write = true ∧ turn.renews entry = true)) (stored : Option SocketIoRegistryEntry) :
    turned turn entry stored = stored := by
  cases wrote : turn.write with
  | false => simp [turned, wrote]
  | true =>
    have late : turn.renews entry = false := by simpa [wrote] using idle
    simp [turned, wrote, keeps, late]

theorem find?_writeBack (turns : String → Turn) (registry : Registry) (entry : SocketIoRegistryEntry) (sid : String) :
    (writeBack turns registry entry).find? sid =
      if entry.sid = sid then turned (turns sid) entry (registry.find? sid) else registry.find? sid := by
  unfold writeBack turned
  simp only
  by_cases own : entry.sid = sid
  · rw [if_pos own, own]
    split
    · rfl
    · split
      · rw [Table.find?_delete, if_pos rfl]
      · split
        · rw [Table.find?_upsert, if_pos rfl]
        · rfl
  · rw [if_neg own]
    split
    · rfl
    · split
      · rw [Table.find?_delete, if_neg own]
      · split
        · rw [Table.find?_upsert, if_neg own]
        · rfl

/-- The sids of a list are told apart, so the loop touches each in its own turn alone. -/
theorem find?_fanOutSocketio (turns : String → Turn) (entries registry : Registry) (sid : String) :
    (fanOutSocketio turns entries registry).find? sid =
      (entries.find? sid).elim (registry.find? sid) (fun entry => turned (turns sid) entry (registry.find? sid)) := by
  have untouched (rows : List SocketIoRegistryEntry) (start : Registry) (other : ∀ e ∈ rows, e.sid ≠ sid) :
      (rows.foldl (writeBack turns) start).find? sid = start.find? sid := by
    induction rows generalizing start with
    | nil => rfl
    | cons first rest ih =>
      rw [List.foldl_cons, ih _ (fun e member => other e (List.mem_cons_of_mem _ member)), find?_writeBack,
        if_neg (other first List.mem_cons_self)]
  unfold fanOutSocketio
  cases found : entries.find? sid with
  | none => exact untouched entries.rows registry ((entries.find?_eq_none sid).mp found)
  | some entry =>
    obtain ⟨front, back, whole, before, after⟩ := Table.find?_split found
    rw [whole, List.foldl_append, List.foldl_cons, untouched back _ after, find?_writeBack,
      if_pos (Table.key_of_find? found), untouched front registry before, Option.elim_some]

end MessageRelay.Presence
