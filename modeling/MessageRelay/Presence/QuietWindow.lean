import MessageRelay.Library.History
import MessageRelay.Presence.Departures
import MessageRelay.Presence.Pushes

/-! The alarm that confirms departures. It lists the due entries once and then awaits a push for each room, so an entry
it comes to may not be the one it listed: a room that was joined and closed meanwhile is pushed before its window is
over, and so is one whose last session is found lapsed by the alarm's own occupancy check. -/

namespace MessageRelay.Presence
open Library

/-- The identity whose hub this is. -/
structure Owner where
  key : String
  identity : isIdentity key.toList = true

/-- A room begins with its owner's key and a dash; such a room is never blank. -/
def validateRoomOwned (owner : Owner) (room : String) : Bool :=
  (owner.key.toList ++ ['-']).isPrefixOf room.toList

/-- A hub's sessions and departures. An alarm run is the due entries it has still to come to. -/
structure RoomWorld where
  sockets : Table RawSocket.id
  registry : Registry
  pending : PendingRows
  confirmedGone : String → Option ToldPresence
  alarmRun : Option (List PendingRow)

/-- What happens to them. `drop` is a delete of a fan-out's, `turn` the alarm's next room and `done` its end. -/
inductive RoomInput where
  | rawOpen (id nowMs : Nat)
  | rawJoin (id : Nat) (room : String)
  | rawLeave (id : Nat) (room : String)
  | rawClose (id nowMs : Nat)
  | register (sid : String) (nowMs : Nat)
  | join (sid room : String) (nowMs : Nat)
  | leave (sid room : String) (nowMs : Nat)
  | renew (sid : String) (nowMs : Nat)
  | drop (sid : String)
  | unregister (sid : String) (nowMs : Nat)
  | list (nowMs : Nat)
  | ring (nowMs : Nat)
  | turn (nowMs : Nat)
  | done

/-- A close, an unregister or a lapse left a room empty; the alarm confirmed a departure, with those who held the room
at that moment. -/
inductive RoomEvent where
  | emptied (room : String) (atMs : Nat)
  | confirmed (room : String) (atMs : Nat) (holders : List Session)
  deriving DecidableEq, Repr

def rawHold (sockets : Table RawSocket.id) (skip : Option Nat) (room : String) : Bool :=
  sockets.rows.any (fun s => some s.id ≠ skip && room ∈ s.attachment.joinedRooms)

def rowsHold (rows : List SocketIoRegistryEntry) (skip : Option String) (room : String) : Bool :=
  rows.any (fun e => some e.sid ≠ skip && room ∈ e.joinedRooms)

/-- Who holds a room: a raw socket that joined it, or a session that joined it and whose lease has not lapsed. -/
def roomHolders (w : RoomWorld) (room : String) (nowMs : Nat) : List Session :=
  (w.sockets.rows.filter (fun s => room ∈ s.attachment.joinedRooms)).map (fun s => .raw s.id) ++
    (w.registry.rows.filter (fun e => !expired nowMs e && room ∈ e.joinedRooms)).map (fun e => .socketio e.sid)

/-- The rooms lapsed entries walk that nobody holds. -/
def lapsedRooms (w : RoomWorld) (nowMs : Nat) : List String :=
  ((listLapsed nowMs w.registry).flatMap (fun e => closeWalk e.joinedRooms e.leftRooms)).filter
    (fun room => !(rawHold w.sockets none room || rowsHold (listLive nowMs w.registry).rows none room))

/-- Each of them once, with the leaver to name. -/
def lapsedDepartures (rooms : List String) : List (String × String) :=
  rooms.foldl (fun out room =>
    match roomIdentity room with
    | none => out
    | some leaver => if out.any (fun d => d.1 = room) then out else out ++ [(room, leaver)]) []

def armRoom (nowMs : Nat) (pending : PendingRows) (departure : String × String) : PendingRows :=
  pending.upsert ⟨departure.1, armDepartureDebounce departure.2 nowMs⟩

/-- `list_socketio_subscribers`: the lapsed entries are deleted and their rooms armed. -/
def listSubscribers (w : RoomWorld) (nowMs : Nat) : RoomWorld × List RoomEvent :=
  ({ w with
      registry := listWrites nowMs (fun _ => true) w.registry
      pending := (lapsedDepartures (lapsedRooms w nowMs)).foldl (armRoom nowMs) w.pending },
    (lapsedRooms w nowMs).map (fun room => .emptied room nowMs))

/-- Whether anybody but the departing session holds a room. A raw socket that does spares the list. -/
def roomStillOccupied (w : RoomWorld) (nowMs : Nat) (skipWs : Option Nat) (skipSid : Option String) (room : String) :
    Bool × RoomWorld × List RoomEvent :=
  if rawHold w.sockets skipWs room then (true, w, [])
  else (rowsHold (listLive nowMs w.registry).rows skipSid room, listSubscribers w nowMs)

/-- One room of a close: armed where nobody else holds it. -/
def departRoom (nowMs : Nat) (skipWs : Option Nat) (skipSid : Option String) (leaver : String)
    (before : RoomWorld × List RoomEvent) (room : String) : RoomWorld × List RoomEvent :=
  let (occupied, w, events) := roomStillOccupied before.1 nowMs skipWs skipSid room
  if occupied then (w, before.2 ++ events)
  else ({ w with pending := armRoom nowMs w.pending (room, leaver) }, before.2 ++ events ++ [.emptied room nowMs])

/-- `maybe_notify_peer_left` for a close. -/
def departRooms (w : RoomWorld) (nowMs : Nat) (skipWs : Option Nat) (skipSid : Option String) (leaver : String)
    (rooms : List String) : RoomWorld × List RoomEvent :=
  rooms.foldl (departRoom nowMs skipWs skipSid leaver) (w, [])

def RawSocket.change (f : SocketAttachment → SocketAttachment) (s : RawSocket) : RawSocket :=
  { s with attachment := f s.attachment }

theorem RawSocket.change_id (f : SocketAttachment → SocketAttachment) (s : RawSocket) : (s.change f).id = s.id := rfl

/-- A raw socket's close latches it room-less first. -/
def teardownDepartedSocket (w : RoomWorld) (id nowMs : Nat) : RoomWorld × List RoomEvent :=
  match w.sockets.find? id with
  | none => (w, [])
  | some s =>
    let latch (a : SocketAttachment) : SocketAttachment := { a with joinedRooms := [], leftRooms := [] }
    let latched := w.sockets.modify id (RawSocket.change latch) (RawSocket.change_id latch)
    departRooms { w with sockets := latched } nowMs (some id) none s.attachment.identityKey
      (closeWalk s.attachment.joinedRooms s.attachment.leftRooms)

/-- An unregister deletes the entry first. A first room with no owner to name would leave the rooms unarmed. -/
def unregisterSession (w : RoomWorld) (sid : String) (nowMs : Nat) : RoomWorld × List RoomEvent :=
  let deleted := { w with registry := w.registry.keep (fun e => e.sid ≠ sid) }
  match w.registry.find? sid with
  | none => (deleted, [])
  | some entry =>
    match closeWalk entry.joinedRooms entry.leftRooms with
    | [] => (deleted, [])
    | first :: rest =>
      match roomIdentity first with
      | some leaver => departRooms deleted nowMs none (some sid) leaver (first :: rest)
      | none =>
        (deleted, ((first :: rest).filter (fun room => (roomHolders deleted room nowMs).isEmpty)).map
          (fun room => .emptied room nowMs))

/-- The alarm deletes the entry it comes to before it looks at the room. -/
def RoomWorld.deleted (w : RoomWorld) (row : PendingRow) (rest : List PendingRow) : RoomWorld :=
  { w with pending := w.pending.keep (fun other => other.room ≠ row.room), alarmRun := some rest }

/-- One room of `run_departure_debounce_alarm`. -/
def alarmTurn (w : RoomWorld) (nowMs : Nat) : RoomWorld × List RoomEvent :=
  match w.alarmRun with
  | some (row :: rest) =>
    let (occupied, w', events) := roomStillOccupied (w.deleted row rest) nowMs none none row.room
    if departurePushDue occupied then
      ({ w' with confirmedGone := Function.update w'.confirmedGone row.room (some .absent) },
        events ++ [.confirmed row.room nowMs (roomHolders w' row.room nowMs)])
    else (w', events)
  | _ => (w, [])

def roomStep (owner : Owner) (w : RoomWorld) : RoomInput → RoomWorld × List RoomEvent
  | .rawOpen id nowMs => ({ w with sockets := w.sockets.insertIgnore ⟨id, ⟨owner.key, nowMs, [], []⟩⟩ }, [])
  | .rawJoin id room =>
    if validateRoomOwned owner room then
      ({ w with
          sockets := w.sockets.modify id (RawSocket.change (fun a => a.join room)) (RawSocket.change_id _)
          confirmedGone := Function.update w.confirmedGone room (some .present) }, [])
    else (w, [])
  | .rawLeave id room =>
    ({ w with sockets := w.sockets.modify id (RawSocket.change (fun a => a.leave room)) (RawSocket.change_id _) }, [])
  | .rawClose id nowMs => teardownDepartedSocket w id nowMs
  | .register sid nowMs => ({ w with registry := handleSocketioRegister w.registry allTake sid nowMs }, [])
  | .join sid room nowMs =>
    if validateRoomOwned owner room then
      ({ w with
          registry := joinRoom w.registry allTake sid room nowMs
          confirmedGone := Function.update w.confirmedGone room (some .present) }, [])
    else (w, [])
  | .leave sid room nowMs => ({ w with registry := leaveRoom w.registry allTake sid room nowMs }, [])
  | .renew sid nowMs => ({ w with registry := renewLease w.registry allTake sid nowMs }, [])
  | .drop sid => ({ w with registry := w.registry.keep (fun e => e.sid ≠ sid) }, [])
  | .unregister sid nowMs => unregisterSession w sid nowMs
  | .list nowMs => listSubscribers w nowMs
  | .ring nowMs =>
    match w.alarmRun with
    | none => ({ w with alarmRun := some (splitDuePending w.pending.rows nowMs).1 }, [])
    | some _ => (w, [])
  | .turn nowMs => alarmTurn w nowMs
  | .done =>
    match w.alarmRun with
    | some [] => ({ w with alarmRun := none }, [])
    | _ => (w, [])

def roomMachine (owner : Owner) : Machine RoomWorld RoomInput RoomEvent := ⟨roomStep owner⟩

abbrev RoomConfig := Config RoomWorld RoomEvent

def roomStart : RoomConfig := ⟨⟨Table.empty, Table.empty, Table.empty, fun _ => none, none⟩, []⟩

/-- The latest close that emptied a room. -/
def lastEmptied (log : List RoomEvent) (room : String) : Option Nat :=
  log.foldl (fun last e =>
    match e with
    | .emptied r atMs => if r = room then some atMs else last
    | .confirmed .. => last) none

/-- A departure is confirmed of a room that nobody holds, a full window after the latest close that emptied it. -/
def AfterWindow (before : List RoomEvent) : RoomEvent → Prop
  | .confirmed room atMs holders =>
    holders = [] ∧ ∀ t, lastEmptied before room = some t → t + peerLeftDebounceMs ≤ atMs
  | .emptied .. => True

/-- The entry the alarm comes to next. -/
def nextTurn (w : RoomWorld) : Option PendingRow :=
  match w.alarmRun with
  | some (row :: _) => some row
  | _ => none

/-- The condition on one step: the alarm comes to a room that somebody holds, or to one whose stored entry is due by
then and whose last session its own check does not find lapsed. -/
def Undisturbed (c : RoomConfig) : RoomInput → Prop
  | .turn nowMs =>
    ∀ row ∈ nextTurn c.state, roomHolders c.state row.room nowMs ≠ [] ∨
      ((∀ stored ∈ c.state.pending.find? row.room, stored.entry.dueAtMs ≤ nowMs) ∧
        row.room ∉ lapsedRooms c.state nowMs)
  | _ => True

/-! The rooms of a hub begin with its owner's key, so each has a leaver to name. -/

theorem roomIdentity_of_owned {owner : Owner} {room : String} (owned : validateRoomOwned owner room = true) :
    roomIdentity room = some owner.key := by
  obtain ⟨suffix, whole⟩ := List.isPrefixOf_iff_prefix.mp owned
  have hex : ∀ c ∈ owner.key.toList, isAsciiHexdigit c = true := by
    have key := owner.identity
    simp only [isIdentity, Bool.and_eq_true, List.all_eq_true] at key
    exact key.2
  have noDash : ∀ c ∈ owner.key.toList, (decide (c ≠ '-')) = true := by
    intro c member
    have digit := hex c member
    rw [decide_eq_true_eq]
    rintro rfl
    exact absurd digit (by decide)
  have parted : splitOnce room = some (owner.key.toList, suffix) := by
    unfold splitOnce
    rw [List.span_eq_takeWhile_dropWhile, ← whole, List.append_assoc, List.takeWhile_append_of_pos noDash,
      List.dropWhile_append_of_pos noDash]
    simp
  unfold roomIdentity
  simp only [parted, owner.identity, if_true, String.ofList_toList]

theorem mem_boundLeftRooms {base : Nat} {joined left : List String} {room : String}
    (member : room ∈ boundLeftRooms base joined left) : room ∈ left := by
  induction left with
  | nil => exact member
  | cons oldest rest ih =>
    unfold boundLeftRooms at member
    split at member
    · exact List.mem_cons_of_mem _ (ih member)
    · exact member

/-- A record names no rooms but those it named and the one joined. -/
theorem rooms_recordJoin {base : Nat} {record : RoomRecord} {room held : String}
    (member : held ∈ ((recordJoin base record room).getD record).joined ∨
      held ∈ ((recordJoin base record room).getD record).left) :
    held = room ∨ held ∈ record.joined ∨ held ∈ record.left := by
  obtain joined | left := member
  · exact ((mem_recordJoin base record room held).mp joined).imp_right .inl
  · unfold recordJoin at left
    simp only at left
    split at left
    · exact .inr (.inr (List.mem_of_mem_filter (mem_boundLeftRooms left)))
    · exact .inr (.inr left)

theorem rooms_recordLeave {base : Nat} {record : RoomRecord} {room held : String}
    (member : held ∈ ((recordLeave base record room).getD record).joined ∨
      held ∈ ((recordLeave base record room).getD record).left) :
    held ∈ record.joined ∨ held ∈ record.left := by
  obtain joined | left := member
  · exact .inl ((mem_recordLeave base record room held).mp joined).1
  · unfold recordLeave at left
    simp only at left
    split at left
    · exact .inr left
    · rename_i shorter
      split at left
      · exact .inr (mem_boundLeftRooms left)
      · obtain old | new := List.mem_append.mp (mem_boundLeftRooms left)
        · exact .inr (List.mem_of_mem_filter old)
        · rw [List.mem_singleton.mp new]
          by_contra absent
          have whole : record.joined.filter (fun r => r ≠ room) = record.joined := by
            refine List.filter_eq_self.mpr (fun r inside => decide_eq_true ?_)
            rintro rfl
            exact absent (.inl inside)
          exact shorter (by rw [whole])

/-- Every room a session's close would walk has an identity. -/
def Owned (registry : Registry) : Prop :=
  ∀ sid entry, registry.find? sid = some entry →
    ∀ room, room ∈ entry.joinedRooms ∨ room ∈ entry.leftRooms → roomIdentity room ≠ none

theorem Owned.keep {registry : Registry} (owned : Owned registry) (p : SocketIoRegistryEntry → Bool) :
    Owned (registry.keep p) := by
  intro sid entry found
  rw [Table.find?_keep] at found
  exact owned sid entry (Option.filter_eq_some_iff.mp found).1

theorem Owned.upsert {registry : Registry} (owned : Owned registry) {entry : SocketIoRegistryEntry}
    (own : ∀ room, room ∈ entry.joinedRooms ∨ room ∈ entry.leftRooms → roomIdentity room ≠ none) :
    Owned (registry.upsert entry) := by
  intro sid other found
  rw [Table.find?_upsert] at found
  split at found
  · cases found
    exact own
  · exact owned sid other found

theorem Owned.list {registry : Registry} (owned : Owned registry) (nowMs : Nat) (writes : String → Bool) :
    Owned (listWrites nowMs writes registry) := by
  intro sid entry found room member
  rw [find?_listWrites] at found
  obtain ⟨before, stored, written⟩ := Option.bind_eq_some_iff.mp found
  split at written
  · cases written
  · cases written
    refine owned sid before stored room ?_
    split at member
    · unfold stampLease at member
      split at member <;> exact member
    · exact member

/-- The rooms of the entry an operation reads, or of a fresh one. -/
theorem Owned.read {registry : Registry} (owned : Owned registry) (sid : String) (nowMs : Nat) :
    let entry := (registry.find? sid).getD (freshSocketioEntry sid nowMs)
    ∀ room, room ∈ entry.joinedRooms ∨ room ∈ entry.leftRooms → roomIdentity room ≠ none := by
  cases found : registry.find? sid with
  | none =>
    intro entry room member
    simp [entry, freshSocketioEntry] at member
  | some entry => exact owned sid entry found

theorem Owned.update {registry : Registry} (owned : Owned registry) {mutate : Nat → RoomRecord → Option RoomRecord}
    (own : ∀ base record room,
      (∀ held, held ∈ record.joined ∨ held ∈ record.left → roomIdentity held ≠ none) →
      room ∈ ((mutate base record).getD record).joined ∨ room ∈ ((mutate base record).getD record).left →
      roomIdentity room ≠ none)
    (calls : Calls) (sid : String) (nowMs : Nat) : Owned (updateSocketioRooms mutate registry calls sid nowMs) := by
  unfold updateSocketioRooms Registry.put
  split
  · exact owned
  · split
    · exact owned.upsert (fun room => own _ _ room (owned.read sid nowMs))
    · exact owned

theorem Owned.join {registry : Registry} (owned : Owned registry) {room : String} (named : roomIdentity room ≠ none)
    (calls : Calls) (sid : String) (nowMs : Nat) : Owned (joinRoom registry calls sid room nowMs) := by
  refine owned.update (fun base record held own member => ?_) calls sid nowMs
  obtain rfl | old := rooms_recordJoin member
  · exact named
  · exact own held old

theorem Owned.leave {registry : Registry} (owned : Owned registry) (calls : Calls) (sid room : String) (nowMs : Nat) :
    Owned (leaveRoom registry calls sid room nowMs) :=
  owned.update (fun _ _ held own member => own held (rooms_recordLeave member)) calls sid nowMs

theorem Owned.renew {registry : Registry} (owned : Owned registry) (calls : Calls) (sid : String) (nowMs : Nat) :
    Owned (renewLease registry calls sid nowMs) := by
  intro other entry found
  obtain ⟨lease, same⟩ := find?_renewLease registry calls sid nowMs other
  rw [same] at found
  obtain ⟨before, stored, rfl⟩ := Option.map_eq_some_iff.mp found
  exact owned other before stored

theorem Owned.register {registry : Registry} (owned : Owned registry) (sid : String) (nowMs : Nat) :
    Owned (handleSocketioRegister registry allTake sid nowMs) := by
  unfold handleSocketioRegister
  split
  · exact owned
  · refine owned.upsert (fun room member => ?_)
    cases found : registry.find? sid with
    | none => simp [registered, Registry.get, allTake, found] at member
    | some entry =>
      refine owned sid entry found room ?_
      simpa [registered, Registry.get, allTake, found] using member

/-! A close and a list arm every room they leave empty, at the moment they do. -/

theorem lastEmptied_snoc (log : List RoomEvent) (event : RoomEvent) (room : String) :
    lastEmptied (log ++ [event]) room =
      match event with
      | .emptied r atMs => if r = room then some atMs else lastEmptied log room
      | .confirmed .. => lastEmptied log room := by
  unfold lastEmptied
  rw [List.foldl_append]
  rfl

theorem lastEmptied_emptied (log : List RoomEvent) (rooms : List String) (nowMs : Nat) (room : String) :
    lastEmptied (log ++ rooms.map (fun r => .emptied r nowMs)) room =
      if room ∈ rooms then some nowMs else lastEmptied log room := by
  induction rooms using List.reverseRecOn with
  | nil => simp
  | append_singleton front last ih =>
    rw [List.map_append, ← List.append_assoc, List.map_singleton, lastEmptied_snoc]
    simp only
    by_cases same : last = room
    · rw [if_pos same, if_pos (by simp [same])]
    · rw [if_neg same, ih]
      simp [Ne.symm same]

theorem mem_lapsedDepartures (rooms : List String) (room : String) :
    room ∈ (lapsedDepartures rooms).map Prod.fst ↔ room ∈ rooms ∧ roomIdentity room ≠ none := by
  induction rooms using List.reverseRecOn with
  | nil => simp [lapsedDepartures]
  | append_singleton front last ih =>
    have step : lapsedDepartures (front ++ [last]) =
        match roomIdentity last with
        | none => lapsedDepartures front
        | some leaver =>
          if (lapsedDepartures front).any (fun d => d.1 = last) then lapsedDepartures front
          else lapsedDepartures front ++ [(last, leaver)] := by
      unfold lapsedDepartures
      rw [List.foldl_append]
      rfl
    rw [step, List.mem_append, List.mem_singleton]
    cases named : roomIdentity last with
    | none =>
      rw [ih]
      constructor
      · rintro ⟨inside, own⟩
        exact ⟨.inl inside, own⟩
      · rintro ⟨inside | rfl, own⟩
        · exact ⟨inside, own⟩
        · exact absurd named own
    | some leaver =>
      simp only
      split
      · rename_i already
        have armed : last ∈ (lapsedDepartures front).map Prod.fst := by simpa using already
        rw [ih]
        constructor
        · rintro ⟨inside, own⟩
          exact ⟨.inl inside, own⟩
        · rintro ⟨inside | rfl, own⟩
          · exact ⟨inside, own⟩
          · exact ih.mp armed
      · rw [List.map_append, List.mem_append, ih]
        constructor
        · rintro (⟨inside, own⟩ | new)
          · exact ⟨.inl inside, own⟩
          · rw [List.map_singleton, List.mem_singleton] at new
            exact ⟨.inr new, by rw [new, named]; exact Option.some_ne_none leaver⟩
        · rintro ⟨inside | rfl, own⟩
          · exact .inl ⟨inside, own⟩
          · exact .inr (by simp)

/-- A room is armed as of now where it is among the departures, and as it was elsewhere. -/
theorem find?_armRooms (nowMs : Nat) (departures : List (String × String)) (pending : PendingRows) (room : String) :
    (room ∈ departures.map Prod.fst ∧ ∃ leaver,
        (departures.foldl (armRoom nowMs) pending).find? room = some ⟨room, armDepartureDebounce leaver nowMs⟩) ∨
      (room ∉ departures.map Prod.fst ∧
        (departures.foldl (armRoom nowMs) pending).find? room = pending.find? room) := by
  induction departures using List.reverseRecOn with
  | nil => exact .inr ⟨by simp, rfl⟩
  | append_singleton front last ih =>
    obtain ⟨armed, leaver⟩ := last
    rw [List.foldl_append, List.foldl_cons, List.foldl_nil, armRoom, Table.find?_upsert, List.map_append,
      List.map_singleton, List.mem_append, List.mem_singleton]
    simp only
    by_cases same : armed = room
    · rw [if_pos same, same]
      exact .inl ⟨.inr rfl, leaver, rfl⟩
    · rw [if_neg same]
      have other : ¬room = armed := fun h => same h.symm
      obtain ⟨inside, found⟩ | ⟨outside, found⟩ := ih
      · exact .inl ⟨.inl inside, found⟩
      · exact .inr ⟨fun either => either.elim outside other, found⟩

/-- A pending entry is due a window after the latest close that emptied its room, and the entries an alarm run has still
to come to are stored, one for each room. -/
structure Quiet (c : RoomConfig) : Prop where
  timed : ∀ room row, c.state.pending.find? room = some row →
    ∃ t, lastEmptied c.log room = some t ∧ row.entry.dueAtMs = t + peerLeftDebounceMs
  owned : Owned c.state.registry
  distinct : ∀ rows, c.state.alarmRun = some rows → (rows.map PendingRow.room).Nodup
  stored : ∀ rows, c.state.alarmRun = some rows → ∀ row ∈ rows, (c.state.pending.find? row.room).isSome = true

def RoomEvent.isEmptied : RoomEvent → Bool
  | .emptied .. => true
  | .confirmed .. => false

/-- What a request made of a quiet hub so far: it is quiet still, and no departure was confirmed. -/
structure Carried (log : List RoomEvent) (r : RoomWorld × List RoomEvent) : Prop where
  quiet : Quiet ⟨r.1, log ++ r.2⟩
  silent : ∀ event ∈ r.2, event.isEmptied = true

/-- What leaves the pending entries alone. -/
theorem Quiet.frame {w : RoomWorld} {log : List RoomEvent} (quiet : Quiet ⟨w, log⟩) {w' : RoomWorld}
    (pending : w'.pending = w.pending) (owned : Owned w'.registry) (run : w'.alarmRun = w.alarmRun) :
    Quiet ⟨w', log⟩ where
  timed := by
    simp only [pending]
    exact quiet.timed
  owned := owned
  distinct := by
    simp only [run]
    exact quiet.distinct
  stored := by
    simp only [run, pending]
    exact quiet.stored

theorem Quiet.carried {w : RoomWorld} {log : List RoomEvent} (quiet : Quiet ⟨w, log⟩) : Carried log (w, []) where
  quiet := by
    rw [List.append_nil]
    exact quiet
  silent := by simp

/-- A request that leaves the pending entries and the alarm alone. -/
theorem Quiet.request {c : RoomConfig} (quiet : Quiet c) {w' : RoomWorld} (pending : w'.pending = c.state.pending)
    (owned : Owned w'.registry) (run : w'.alarmRun = c.state.alarmRun) : Carried c.log (w', []) :=
  (quiet.frame pending owned run).carried

theorem lapsedRooms_named {w : RoomWorld} (owned : Owned w.registry) {nowMs : Nat} {room : String}
    (member : room ∈ lapsedRooms w nowMs) : roomIdentity room ≠ none := by
  obtain ⟨entry, lapsed, walked⟩ := List.mem_flatMap.mp (List.mem_of_mem_filter member)
  have stored := (w.registry.find?_eq_some entry.sid entry).mpr ⟨List.mem_of_mem_filter lapsed, rfl⟩
  exact owned entry.sid entry stored room ((mem_closeWalk _ _ room).mp walked)

theorem Carried.list {log : List RoomEvent} {w : RoomWorld} {events : List RoomEvent}
    (carried : Carried log (w, events)) (nowMs : Nat) :
    Carried log ((listSubscribers w nowMs).1, events ++ (listSubscribers w nowMs).2) where
  quiet :=
    { timed := by
        intro room row found
        rw [← List.append_assoc]
        simp only [listSubscribers] at found ⊢
        rw [lastEmptied_emptied]
        have armedIff := mem_lapsedDepartures (lapsedRooms w nowMs) room
        obtain ⟨armed, leaver, now⟩ | ⟨other, before⟩ :=
          find?_armRooms nowMs (lapsedDepartures (lapsedRooms w nowMs)) w.pending room
        · rw [now, Option.some.injEq] at found
          rw [if_pos (armedIff.mp armed).1]
          exact ⟨nowMs, rfl, by rw [← found]; rfl⟩
        · rw [before] at found
          have still : room ∉ lapsedRooms w nowMs := fun inside =>
            other (armedIff.mpr ⟨inside, lapsedRooms_named carried.quiet.owned inside⟩)
          rw [if_neg still]
          exact carried.quiet.timed room row found
      owned := carried.quiet.owned.list nowMs _
      distinct := carried.quiet.distinct
      stored := by
        intro rows run row member
        have before := carried.quiet.stored rows run row member
        obtain ⟨-, leaver, now⟩ | ⟨-, same⟩ :=
          find?_armRooms nowMs (lapsedDepartures (lapsedRooms w nowMs)) w.pending row.room
        · simp only [listSubscribers, now, Option.isSome_some]
        · simp only [listSubscribers, same]
          exact before }
  silent := by
    intro event member
    obtain old | new := List.mem_append.mp member
    · exact carried.silent event old
    · obtain ⟨room, -, rfl⟩ := List.mem_map.mp new
      rfl

theorem Carried.check {log : List RoomEvent} {w : RoomWorld} {events : List RoomEvent}
    (carried : Carried log (w, events)) (nowMs : Nat) (skipWs : Option Nat) (skipSid : Option String) (room : String) :
    Carried log ((roomStillOccupied w nowMs skipWs skipSid room).2.1,
      events ++ (roomStillOccupied w nowMs skipWs skipSid room).2.2) := by
  unfold roomStillOccupied
  split
  · simp only [List.append_nil]
    exact carried
  · exact carried.list nowMs

theorem Carried.arm {log : List RoomEvent} {w : RoomWorld} {events : List RoomEvent}
    (carried : Carried log (w, events)) (nowMs : Nat) (room leaver : String) :
    Carried log ({ w with pending := armRoom nowMs w.pending (room, leaver) }, events ++ [.emptied room nowMs]) where
  quiet :=
    { timed := by
        intro other row found
        simp only [armRoom, Table.find?_upsert] at found
        simp only [← List.append_assoc, lastEmptied_snoc]
        split at found
        · rename_i same
          rw [if_pos same]
          cases found
          exact ⟨nowMs, rfl, rfl⟩
        · rename_i different
          rw [if_neg different]
          exact carried.quiet.timed other row found
      owned := carried.quiet.owned
      distinct := carried.quiet.distinct
      stored := by
        intro rows run row member
        simp only [armRoom, Table.find?_upsert]
        split
        · rfl
        · exact carried.quiet.stored rows run row member }
  silent := by
    intro event member
    obtain old | new := List.mem_append.mp member
    · exact carried.silent event old
    · rw [List.mem_singleton.mp new]
      rfl

theorem Carried.depart {log : List RoomEvent} {before : RoomWorld × List RoomEvent} (carried : Carried log before)
    (nowMs : Nat) (skipWs : Option Nat) (skipSid : Option String) (leaver room : String) :
    Carried log (departRoom nowMs skipWs skipSid leaver before room) := by
  have checked := carried.check nowMs skipWs skipSid room
  unfold departRoom
  simp only
  split
  · exact checked
  · exact checked.arm nowMs room leaver

theorem Carried.departRooms {log : List RoomEvent} {w : RoomWorld} (carried : Carried log (w, [])) (nowMs : Nat)
    (skipWs : Option Nat) (skipSid : Option String) (leaver : String) (rooms : List String) :
    Carried log (departRooms w nowMs skipWs skipSid leaver rooms) := by
  unfold Presence.departRooms
  generalize (w, ([] : List RoomEvent)) = start at carried ⊢
  induction rooms generalizing start with
  | nil => exact carried
  | cons room rest ih => exact ih _ (carried.depart nowMs skipWs skipSid leaver room)

theorem Carried.teardown {c : RoomConfig} (quiet : Quiet c) (id nowMs : Nat) :
    Carried c.log (teardownDepartedSocket c.state id nowMs) := by
  unfold teardownDepartedSocket
  split
  · exact quiet.carried
  · apply Carried.departRooms
    exact quiet.request rfl quiet.owned rfl

theorem Carried.unregister {c : RoomConfig} (quiet : Quiet c) (sid : String) (nowMs : Nat) :
    Carried c.log (unregisterSession c.state sid nowMs) := by
  have deleted : Carried c.log ({ c.state with registry := c.state.registry.keep (fun e => e.sid ≠ sid) }, []) := by
    exact quiet.request rfl (quiet.owned.keep _) rfl
  unfold unregisterSession
  simp only
  split
  · exact deleted
  · rename_i entry stored
    split
    · exact deleted
    · rename_i first rest walk
      have walked : first ∈ closeWalk entry.joinedRooms entry.leftRooms := by simp [walk]
      have named := quiet.owned sid entry stored first ((mem_closeWalk _ _ first).mp walked)
      split
      · exact deleted.departRooms nowMs _ _ _ _
      · rename_i unnamed
        exact absurd unnamed named

/-! The alarm's own check finds nobody exactly where nobody holds the room. -/

theorem listWrites_all (nowMs : Nat) (registry : Registry) :
    (listWrites nowMs (fun _ => true) registry).rows = (listLive nowMs registry).rows := by
  simp [listWrites, listLive, Table.map, Table.keep]

theorem rawHold_eq_false (sockets : Table RawSocket.id) (room : String) :
    rawHold sockets none room = false ↔ sockets.rows.filter (fun s => room ∈ s.attachment.joinedRooms) = [] := by
  simp [rawHold, List.filter_eq_nil_iff]

theorem rowsHold_eq_false (nowMs : Nat) (registry : Registry) (room : String) :
    rowsHold (listLive nowMs registry).rows none room = false ↔
      registry.rows.filter (fun e => !expired nowMs e && room ∈ e.joinedRooms) = [] := by
  simp [rowsHold, listLive, Table.map, Table.keep, stampLease_joinedRooms, List.filter_eq_nil_iff]

theorem not_occupied_iff (w : RoomWorld) (nowMs : Nat) (room : String) :
    (roomStillOccupied w nowMs none none room).1 = false ↔ roomHolders w room nowMs = [] := by
  unfold roomStillOccupied roomHolders
  rw [List.append_eq_nil_iff, List.map_eq_nil_iff, List.map_eq_nil_iff, ← rawHold_eq_false, ← rowsHold_eq_false]
  cases rawHold w.sockets none room <;> simp

/-- What the check leaves where it finds nobody. -/
theorem check_of_not_occupied {w : RoomWorld} {nowMs : Nat} {room : String}
    (empty : (roomStillOccupied w nowMs none none room).1 = false) :
    (roomStillOccupied w nowMs none none room).2 = listSubscribers w nowMs ∧
      roomHolders (listSubscribers w nowMs).1 room nowMs = [] := by
  have raw : rawHold w.sockets none room = false := by
    cases held : rawHold w.sockets none room with
    | false => rfl
    | true => simp [roomStillOccupied, held] at empty
  have rows : rowsHold (listLive nowMs w.registry).rows none room = false := by
    simpa [roomStillOccupied, raw] using empty
  have gone : ∀ e ∈ (listLive nowMs w.registry).rows, room ∉ e.joinedRooms := by simpa [rowsHold] using rows
  constructor
  · simp [roomStillOccupied, raw]
  · unfold roomHolders
    rw [List.append_eq_nil_iff, List.map_eq_nil_iff, List.map_eq_nil_iff]
    refine ⟨(rawHold_eq_false w.sockets room).mp raw, List.filter_eq_nil_iff.mpr ?_⟩
    intro e member
    simp only [listSubscribers, listWrites_all] at member
    simp [gone e member]

/-- The alarm deletes the entry of the room it comes to; those it has still to come to are of other rooms. -/
theorem Quiet.delete {c : RoomConfig} (quiet : Quiet c) {row : PendingRow} {rest : List PendingRow}
    (run : c.state.alarmRun = some (row :: rest)) :
    Quiet ⟨c.state.deleted row rest, c.log⟩ where
  timed := by
    intro room stored found
    simp only [RoomWorld.deleted, Table.find?_delete] at found
    split at found
    · cases found
    · exact quiet.timed room stored found
  owned := quiet.owned
  distinct := by
    intro rows same
    cases same
    have distinct := quiet.distinct _ run
    rw [List.map_cons, List.nodup_cons] at distinct
    exact distinct.2
  stored := by
    intro rows same other member
    cases same
    have distinct := quiet.distinct _ run
    rw [List.map_cons, List.nodup_cons] at distinct
    have different : row.room ≠ other.room := fun h => distinct.1 (h ▸ List.mem_map_of_mem member)
    simp only [RoomWorld.deleted, Table.find?_delete, if_neg different]
    exact quiet.stored _ run other (List.mem_cons_of_mem _ member)

theorem Carried.preceded_iff {log : List RoomEvent} {r : RoomWorld × List RoomEvent} (carried : Carried log r) :
    Preceded AfterWindow (log ++ r.2) ↔ Preceded AfterWindow log := by
  refine preceded_append_iff (fun event member before => ?_)
  have emptied := carried.silent event member
  cases event with
  | emptied room atMs => trivial
  | confirmed room atMs holders => cases emptied

theorem alarmTurn_occupied {w : RoomWorld} {row : PendingRow} {rest : List PendingRow}
    (run : w.alarmRun = some (row :: rest)) {nowMs : Nat}
    (occupied : (roomStillOccupied (w.deleted row rest) nowMs none none row.room).1 = true) :
    alarmTurn w nowMs = (roomStillOccupied (w.deleted row rest) nowMs none none row.room).2 := by
  simp [alarmTurn, run, occupied, departurePushDue]

theorem alarmTurn_empty {w : RoomWorld} {row : PendingRow} {rest : List PendingRow}
    (run : w.alarmRun = some (row :: rest)) {nowMs : Nat}
    (empty : (roomStillOccupied (w.deleted row rest) nowMs none none row.room).1 = false) :
    alarmTurn w nowMs =
      ({ (listSubscribers (w.deleted row rest) nowMs).1 with
          confirmedGone := Function.update w.confirmedGone row.room (some .absent) },
        (listSubscribers (w.deleted row rest) nowMs).2 ++ [.confirmed row.room nowMs []]) := by
  obtain ⟨listed, nobody⟩ := check_of_not_occupied empty
  simp only [alarmTurn, run, empty, listed, nobody, departurePushDue, Bool.not_false, if_true]
  rfl

/-- One turn of the alarm. -/
theorem turn_afterWindow {c : RoomConfig} (quiet : Quiet c) (preceded : Preceded AfterWindow c.log) (nowMs : Nat) :
    Quiet ⟨(alarmTurn c.state nowMs).1, c.log ++ (alarmTurn c.state nowMs).2⟩ ∧
      (Preceded AfterWindow (c.log ++ (alarmTurn c.state nowMs).2) ↔ Undisturbed c (.turn nowMs)) := by
  cases next : nextTurn c.state with
  | none =>
    have still : alarmTurn c.state nowMs = (c.state, []) := by
      unfold alarmTurn
      split
      · rename_i row rest run
        simp [nextTurn, run] at next
      · rfl
    simp only [still, List.append_nil, Undisturbed, next]
    exact ⟨quiet, fun _ row absent => (nomatch absent), fun _ => preceded⟩
  | some row =>
    obtain ⟨rest, run⟩ : ∃ rest, c.state.alarmRun = some (row :: rest) := by
      unfold nextTurn at next
      split at next
      · rename_i first rest run
        cases next
        exact ⟨rest, run⟩
      · cases next
    simp only [Undisturbed, next, Option.mem_some_iff, forall_eq']
    have checked := (quiet.delete run).carried.check nowMs none none row.room
    have emptyIff : _ ↔ roomHolders c.state row.room nowMs = [] :=
      not_occupied_iff (c.state.deleted row rest) nowMs row.room
    simp only [List.nil_append] at checked
    cases occupied : (roomStillOccupied (c.state.deleted row rest) nowMs none none row.room).1 with
    | true =>
      have held : roomHolders c.state row.room nowMs ≠ [] := by
        intro nobody
        rw [emptyIff.mpr nobody] at occupied
        cases occupied
      rw [alarmTurn_occupied run occupied]
      exact ⟨checked.quiet, fun _ => .inl held, fun _ => checked.preceded_iff.mpr preceded⟩
    | false =>
      rw [(check_of_not_occupied occupied).1] at checked
      rw [alarmTurn_empty run occupied]
      simp only [← List.append_assoc, preceded_snoc_iff, checked.preceded_iff]
      constructor
      · have after := checked.quiet
        refine { timed := ?_, owned := after.owned, distinct := after.distinct, stored := after.stored }
        intro room stored found
        rw [lastEmptied_snoc]
        exact after.timed room stored found
      · -- the room was emptied last when its entry was armed, or by the check itself
        obtain ⟨stored, found⟩ := Option.isSome_iff_exists.mp (quiet.stored _ run row List.mem_cons_self)
        obtain ⟨t, last, due⟩ := quiet.timed row.room stored found
        have same : lapsedRooms (c.state.deleted row rest) nowMs = lapsedRooms c.state nowMs := rfl
        simp only [AfterWindow, listSubscribers, lastEmptied_emptied, same, emptyIff.mp occupied, found,
          Option.mem_some_iff, forall_eq', ne_eq, not_true_eq_false, false_or, preceded, true_and, due]
        by_cases lapsed : row.room ∈ lapsedRooms c.state nowMs
        · simp [lapsed, peerLeftDebounceMs]
        · simp [lapsed, last]

theorem splitDuePending_nodup (pending : PendingRows) (nowMs : Nat) :
    ((splitDuePending pending.rows nowMs).1.map PendingRow.room).Nodup := by
  rw [splitDuePending_due]
  exact (List.filter_sublist.map _).nodup pending.unique

theorem Quiet.ring {c : RoomConfig} (quiet : Quiet c) (nowMs : Nat) :
    Quiet ⟨{ c.state with alarmRun := some (splitDuePending c.state.pending.rows nowMs).1 }, c.log⟩ where
  timed := quiet.timed
  owned := quiet.owned
  distinct := by
    intro rows run
    cases run
    exact splitDuePending_nodup c.state.pending nowMs
  stored := by
    intro rows run row member
    cases run
    have inside := ((mem_splitDuePending c.state.pending.rows nowMs).1 row).mp member
    exact Option.isSome_iff_exists.mpr ⟨row, (c.state.pending.find?_eq_some row.room row).mpr ⟨inside.1, rfl⟩⟩

theorem Quiet.done {c : RoomConfig} (quiet : Quiet c) : Quiet ⟨{ c.state with alarmRun := none }, c.log⟩ where
  timed := quiet.timed
  owned := quiet.owned
  distinct := by
    intro rows run
    cases run
  stored := by
    intro rows run
    cases run

/-- Every step but the alarm's turn. -/
theorem step_carried (owner : Owner) {c : RoomConfig} (quiet : Quiet c) {input : RoomInput}
    (other : ∀ nowMs, input ≠ .turn nowMs) : Carried c.log (roomStep owner c.state input) := by
  have same : Carried c.log (c.state, []) := quiet.carried
  cases input with
  | rawOpen id nowMs =>
    exact quiet.request rfl quiet.owned rfl
  | rawJoin id room =>
    simp only [roomStep]
    split
    · exact quiet.request rfl quiet.owned rfl
    · exact same
  | rawLeave id room =>
    exact quiet.request rfl quiet.owned rfl
  | rawClose id nowMs => exact Carried.teardown quiet id nowMs
  | register sid nowMs =>
    exact quiet.request rfl (quiet.owned.register sid nowMs) rfl
  | join sid room nowMs =>
    simp only [roomStep]
    split
    · rename_i valid
      have named : roomIdentity room ≠ none := by
        rw [roomIdentity_of_owned valid]
        exact Option.some_ne_none _
      exact quiet.request rfl (quiet.owned.join named allTake sid nowMs) rfl
    · exact same
  | leave sid room nowMs =>
    exact quiet.request rfl (quiet.owned.leave allTake sid room nowMs) rfl
  | renew sid nowMs =>
    exact quiet.request rfl (quiet.owned.renew allTake sid nowMs) rfl
  | drop sid =>
    exact quiet.request rfl (quiet.owned.keep _) rfl
  | unregister sid nowMs => exact Carried.unregister quiet sid nowMs
  | list nowMs => exact same.list nowMs
  | ring nowMs =>
    simp only [roomStep]
    split
    · apply Quiet.carried
      exact quiet.ring nowMs
    · exact same
  | turn nowMs => exact absurd rfl (other nowMs)
  | done =>
    simp only [roomStep]
    split
    · apply Quiet.carried
      exact quiet.done
    · exact same

theorem step_afterWindow (owner : Owner) (c : RoomConfig) (input : RoomInput) (quiet : Quiet c)
    (preceded : Preceded AfterWindow c.log) :
    Quiet ((roomMachine owner).advance c input) ∧
      (Preceded AfterWindow ((roomMachine owner).advance c input).log ↔ Undisturbed c input) := by
  by_cases turn : ∃ nowMs, input = .turn nowMs
  · obtain ⟨nowMs, rfl⟩ := turn
    exact turn_afterWindow quiet preceded nowMs
  · have carried := step_carried owner quiet (fun nowMs same => turn ⟨nowMs, same⟩)
    have free : Undisturbed c input := by
      cases input with
      | turn nowMs => exact absurd ⟨nowMs, rfl⟩ turn
      | rawOpen | rawJoin | rawLeave | rawClose | register | join | leave | renew | drop | unregister | list | ring
      | done => trivial
    exact ⟨carried.quiet, fun _ => free, fun _ => carried.preceded_iff.mpr preceded⟩

theorem quiet_start : Quiet roomStart where
  timed := by
    intro room row found
    cases found
  owned := by
    intro sid entry found
    cases found
  distinct := by
    intro rows run
    cases run
  stored := by
    intro rows run
    cases run

/-- Every departure of a run is confirmed after a full window, with nobody in the room, exactly when the alarm comes to
no empty room whose stored entry is not due by then or whose last session its own check finds lapsed. -/
theorem departures_after_window (owner : Owner) (inputs : List RoomInput) :
    Preceded AfterWindow ((roomMachine owner).run roomStart inputs).log ↔
      (roomMachine owner).Guarded Undisturbed roomStart inputs :=
  preceded_run_iff (roomMachine owner) (step_afterWindow owner) quiet_start preceded_nil inputs

def owner0 : Owner := ⟨String.ofList (List.replicate 66 'a'), by decide +kernel⟩

def ownRoom (suffix : String) : String := String.ofList (owner0.key.toList ++ '-' :: suffix.toList)

/-- The alarm lists two rooms. While it awaits the first one's push the second is joined and closed again, and 100 ms
after that close its departure is confirmed. -/
def rearmedRun : List RoomInput :=
  [.join "s1" (ownRoom "one") 0, .join "s2" (ownRoom "two") 0, .unregister "s1" 10, .unregister "s2" 20, .ring 4020,
    .turn 4020, .join "s3" (ownRoom "two") 4400, .unregister "s3" 4500, .turn 4600]

theorem confirmed_within_window : ¬Preceded AfterWindow ((roomMachine owner0).run roomStart rearmedRun).log := by
  intro preceded
  have whole : ((roomMachine owner0).run roomStart rearmedRun).log =
      [.emptied (ownRoom "one") 10, .emptied (ownRoom "two") 20, .confirmed (ownRoom "one") 4020 [],
        .emptied (ownRoom "two") 4500] ++ .confirmed (ownRoom "two") 4600 [] :: [] := by decide +kernel
  have after := preceded _ _ _ whole
  exact absurd (after.2 4500 (by decide +kernel)) (by decide)

end MessageRelay.Presence
