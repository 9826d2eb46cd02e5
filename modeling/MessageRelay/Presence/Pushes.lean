import MessageRelay.Presence.Registry

/-! The receiving end of a presence push. `handle_peer_left` and `handle_peer_joined` flip the told-state, write to the
raw sockets of the room and then broadcast to every socket.io session, one awaited answer at a time; what nobody
answered is parked, and a departure somebody answered is remembered. A session that joins is brought what is owed. -/

namespace MessageRelay.Presence
open Library

/-- What the hub told its owner of the room's other party. As an event, `present` is `peerJoined` and `absent` is
`peerLeft`. -/
inductive ToldPresence where
  | present
  | absent
  deriving DecidableEq, Repr

def toldTransition (prev : Option ToldPresence) (observedPresent : Bool) : Bool × ToldPresence :=
  let next := if observedPresent then .present else .absent
  (prev ≠ some next, next)

def parkedPeerLeftTtlMs : Nat := 3 * 60 * 1000
def peerLeftReplayMs : Nat := 60 * 1000

def parkedPeerLeftIsFresh (parkedAtMs nowMs : Nat) : Bool :=
  nowMs - parkedAtMs ≤ parkedPeerLeftTtlMs

def departureReplayDue (lastAtMs : Option Nat) (told : Option ToldPresence) (nowMs : Nat) : Bool :=
  match lastAtMs, told with
  | some at', some .absent => nowMs - at' ≤ peerLeftReplayMs
  | _, _ => false

inductive ParkedChoice where
  | nothing
  | left
  | joined
  deriving DecidableEq, Repr

def parkedPresenceChoice (leftAtMs joinedAtMs : Option Nat) (told : Option ToldPresence) (nowMs : Nat) : ParkedChoice :=
  let left := (leftAtMs.filter (fun at' => parkedPeerLeftIsFresh at' nowMs)).filter (fun _ => told ≠ some .present)
  let joined := (joinedAtMs.filter (fun at' => parkedPeerLeftIsFresh at' nowMs)).filter (fun _ => told ≠ some .absent)
  match left, joined with
  | none, none => .nothing
  | some _, none => .left
  | none, some _ => .joined
  | some l, some j => if l ≤ j then .joined else .left

/-- The value of `parkedleft:`, `parkedjoined:` and `lastleft:`. -/
structure Parked where
  who : String
  atMs : Nat
  deriving DecidableEq, Repr

/-- The hub's keys for each room's other party. -/
structure PeerStore where
  told : String → Option ToldPresence
  parkedLeft : String → Option Parked
  parkedJoined : String → Option Parked
  lastLeft : String → Option Parked

inductive Session where
  | raw (id : Nat)
  | socketio (sid : String)
  deriving DecidableEq, Repr

structure RawSocket where
  id : Nat
  attachment : SocketAttachment
  deriving DecidableEq, Repr

/-- What became of one write or broadcast: whether a live session received it, and whether it counted. -/
structure Reach where
  received : Bool
  ok : Bool
  deriving DecidableEq, Repr

/-- A push past its flip, with the sessions it has still to broadcast to. -/
structure Push where
  room : String
  who : String
  event : ToldPresence
  remaining : List String
  delivered : Nat
  deriving DecidableEq, Repr

/-- A run of `deliver_parked_presence` that awaits the answer to one room's event. -/
structure Delivery where
  sid : String
  nowMs : Nat
  room : String
  event : ToldPresence
  rest : List String
  deriving DecidableEq, Repr

structure PeerWorld where
  registry : Registry
  sockets : Table RawSocket.id
  store : PeerStore
  pushes : List Push
  deliveries : List Delivery
  dead : Session → Bool

inductive PeerEvent where
  | flipped (room : String) (event : ToldPresence) (atMs : Nat) (holders : List Session)
  | told (session : Session) (room : String) (event : ToldPresence)
  | miscounted (room : String)
  | joined (session : Session) (room : String) (atMs : Nat)
  | delivered (session : Session) (room : String) (event : ToldPresence)
  deriving DecidableEq, Repr

/-- What happens to the hub. A session's death is told to no one. -/
inductive PeerInput where
  | push (present : Bool) (room who : String) (nowMs : Nat) (reach : Nat → Reach)
  | answer (push : Nat) (reach : Reach) (nowMs : Nat)
  | join (sid room : String) (nowMs : Nat)
  | register (sid : String) (nowMs : Nat)
  | reach (delivery : Nat) (received : Bool)
  | leave (sid room : String) (nowMs : Nat)
  | unregister (sid : String)
  | list (nowMs : Nat)
  | rawOpen (id : Nat) (identityKey : String) (nowMs : Nat)
  | rawJoin (id : Nat) (room : String) (nowMs : Nat)
  | rawLeave (id : Nat) (room : String)
  | rawClose (id : Nat)
  | die (session : Session)

/-- The end of a push. -/
def PeerStore.settle (store : PeerStore) (push : Push) (nowMs : Nat) : PeerStore :=
  match push.event with
  | .present =>
    if push.delivered = 0 then
      { store with parkedJoined := Function.update store.parkedJoined push.room (some ⟨push.who, nowMs⟩) }
    else store
  | .absent =>
    if push.delivered = 0 then
      { store with parkedLeft := Function.update store.parkedLeft push.room (some ⟨push.who, nowMs⟩) }
    else { store with lastLeft := Function.update store.lastLeft push.room (some ⟨push.who, nowMs⟩) }

/-- What a write to a session leaves in the log. -/
def reached (dead : Session → Bool) (session : Session) (room : String) (event : ToldPresence) (reach : Reach) :
    List PeerEvent :=
  if reach.received && !dead session then [.told session room event]
  else if reach.ok then [.miscounted room] else []

/-- The sockets a push writes to. -/
def roomSockets (w : PeerWorld) (room : String) : List RawSocket :=
  w.sockets.rows.filter (fun s => room ∈ s.attachment.joinedRooms)

/-- Who holds a room when a push lists the registry. -/
def holders (w : PeerWorld) (room : String) (nowMs : Nat) : List Session :=
  (roomSockets w room).map (fun s => .raw s.id) ++
    ((listLive nowMs w.registry).rows.filter (fun e => room ∈ e.joinedRooms)).map (fun e => .socketio e.sid)

/-- `handle_peer_left` (`present` false) and `handle_peer_joined`, up to the first awaited broadcast. -/
def handlePeer (w : PeerWorld) (present : Bool) (room who : String) (nowMs : Nat) (reach : Nat → Reach) :
    PeerWorld × List PeerEvent :=
  let (emitIt, next) := toldTransition (w.store.told room) present
  if !emitIt then (w, [])
  else
    let store := { w.store with told := Function.update w.store.told room (some next) }
    let sockets := roomSockets w room
    let push : Push :=
      { room, who, event := next
        remaining := (listLive nowMs w.registry).rows.map SocketIoRegistryEntry.sid
        delivered := (sockets.filter (fun s => (reach s.id).ok)).length }
    let listed := { w with registry := listWrites nowMs (fun _ => true) w.registry }
    (match push.remaining with
    | [] => { listed with store := store.settle push nowMs }
    | _ => { listed with store, pushes := w.pushes ++ [push] },
      .flipped room next nowMs (holders w room nowMs) ::
        sockets.flatMap (fun s => reached w.dead (.raw s.id) room next (reach s.id)))

/-- The next session of a push answers; after the last one the push settles. -/
def answer (w : PeerWorld) (i : Nat) (reach : Reach) (nowMs : Nat) : PeerWorld × List PeerEvent :=
  match w.pushes[i]? with
  | none => (w, [])
  | some push =>
    match push.remaining with
    | [] => (w, [])
    | sid :: rest =>
      let push' := { push with remaining := rest, delivered := push.delivered + if reach.ok then 1 else 0 }
      (match rest with
      | [] => { w with store := w.store.settle push' nowMs, pushes := w.pushes.eraseIdx i }
      | _ => { w with pushes := w.pushes.set i push' },
        reached w.dead (.socketio sid) push.room push.event reach)

/-- What one room owes the session at its turn, with the parked keys cleared. -/
def PeerStore.owes (store : PeerStore) (room : String) (nowMs : Nat) : Option ToldPresence × PeerStore :=
  let left := store.parkedLeft room
  let joined := store.parkedJoined room
  if left.isNone && joined.isNone then
    (if departureReplayDue ((store.lastLeft room).map Parked.atMs) (store.told room) nowMs then some .absent else none,
      store)
  else
    (match parkedPresenceChoice (left.map Parked.atMs) (joined.map Parked.atMs) (store.told room) nowMs with
      | .nothing => none
      | .left => some .absent
      | .joined => some .present,
      { store with
        parkedLeft := Function.update store.parkedLeft room none
        parkedJoined := Function.update store.parkedJoined room none })

/-- `deliver_parked_presence` from one room on, up to the next awaited broadcast. -/
def PeerStore.deliver (store : PeerStore) (sid : String) (nowMs : Nat) :
    List String → PeerStore × List PeerEvent × Option Delivery
  | [] => (store, [], none)
  | room :: rest =>
    match store.owes room nowMs with
    | (some event, store') =>
      (store', [.joined (.socketio sid) room nowMs], some { sid, nowMs, room, event, rest })
    | (none, store') =>
      let later := PeerStore.deliver store' sid nowMs rest
      (later.1, .joined (.socketio sid) room nowMs :: later.2.1, later.2.2)

def PeerWorld.deliver (w : PeerWorld) (sid : String) (nowMs : Nat) (rooms : List String) :
    PeerWorld × List PeerEvent :=
  let (store, log, pending) := w.store.deliver sid nowMs rooms
  ({ w with store, deliveries := w.deliveries ++ pending.toList }, log)

def allTake : Calls := ⟨true, true⟩

/-- A join over socket.io. A room that was held already is owed nothing. -/
def socketioJoin (w : PeerWorld) (sid room : String) (nowMs : Nat) : PeerWorld × List PeerEvent :=
  if sid = "" then (w, [])
  else
    let before := (w.registry.find? sid).getD (freshSocketioEntry sid nowMs)
    let w' := { w with registry := joinRoom w.registry allTake sid room nowMs }
    if room ∈ before.joinedRooms then (w', [.joined (.socketio sid) room nowMs])
    else w'.deliver sid nowMs [room]

/-- A register, which brings what is owed in every room the entry held. -/
def socketioRegister (w : PeerWorld) (sid : String) (nowMs : Nat) : PeerWorld × List PeerEvent :=
  if sid = "" then (w, [])
  else
    let rooms := ((w.registry.find? sid).map SocketIoRegistryEntry.joinedRooms).getD []
    { w with registry := handleSocketioRegister w.registry allTake sid nowMs }.deliver sid nowMs rooms

/-- A parked event's broadcast is answered, and the loop goes on. -/
def reachDelivery (w : PeerWorld) (i : Nat) (received : Bool) : PeerWorld × List PeerEvent :=
  match w.deliveries[i]? with
  | none => (w, [])
  | some d =>
    let heard : List PeerEvent :=
      if received && !w.dead (.socketio d.sid) then [.delivered (.socketio d.sid) d.room d.event] else []
    let later := { w with deliveries := w.deliveries.eraseIdx i }.deliver d.sid d.nowMs d.rest
    (later.1, heard ++ later.2)

def PeerWorld.kill (w : PeerWorld) (session : Session) : PeerWorld :=
  { w with dead := Function.update w.dead session true }

def peerStep (w : PeerWorld) : PeerInput → PeerWorld × List PeerEvent
  | .push present room who nowMs reach => handlePeer w present room who nowMs reach
  | .answer i reach nowMs => answer w i reach nowMs
  | .join sid room nowMs => socketioJoin w sid room nowMs
  | .register sid nowMs => socketioRegister w sid nowMs
  | .reach i received => reachDelivery w i received
  | .leave sid room nowMs => ({ w with registry := leaveRoom w.registry allTake sid room nowMs }, [])
  | .unregister sid =>
    ({ w with registry := handleSocketioUnregister w.registry allTake sid }.kill (.socketio sid), [])
  | .list nowMs => ({ w with registry := listWrites nowMs (fun _ => true) w.registry }, [])
  | .rawOpen id identityKey nowMs =>
    ({ w with sockets := w.sockets.insertIgnore ⟨id, ⟨identityKey, nowMs, [], []⟩⟩ }, [])
  | .rawJoin id room nowMs =>
    ({ w with sockets := w.sockets.modify id (fun s => { s with attachment := s.attachment.join room }) (fun _ => rfl) },
      if (w.sockets.find? id).isSome then [.joined (.raw id) room nowMs] else [])
  | .rawLeave id room =>
    ({ w with sockets := w.sockets.modify id (fun s => { s with attachment := s.attachment.leave room }) (fun _ => rfl) },
      [])
  | .rawClose id => ({ w with sockets := w.sockets.keep (fun s => s.id ≠ id) }.kill (.raw id), [])
  | .die session => (w.kill session, [])

def peerMachine : Machine PeerWorld PeerInput PeerEvent := ⟨peerStep⟩

abbrev PeerConfig := Config PeerWorld PeerEvent

def peerStart : PeerConfig where
  state := ⟨Table.empty, Table.empty, ⟨fun _ => none, fun _ => none, fun _ => none, fun _ => none⟩, [], [],
    fun _ => false⟩
  log := []

/-! Tasks in a list. -/

theorem mem_set_or_eq {Task : Type} {tasks : List Task} {i : Nat} {task : Task} (there : tasks[i]? = some task)
    (new : Task) {other : Task} (member : other ∈ tasks) : other ∈ tasks.set i new ∨ other = task := by
  obtain ⟨j, inside, rfl⟩ := List.getElem_of_mem member
  by_cases same : i = j
  · subst same
    rw [List.getElem?_eq_getElem inside, Option.some.injEq] at there
    exact .inr there
  · refine .inl (List.mem_iff_getElem.mpr ⟨j, by simpa using inside, ?_⟩)
    exact List.getElem_set_ne same _

theorem mem_eraseIdx_or_eq {Task : Type} {tasks : List Task} {i : Nat} {task : Task} (there : tasks[i]? = some task)
    {other : Task} (member : other ∈ tasks) : other ∈ tasks.eraseIdx i ∨ other = task := by
  obtain ⟨j, inside, rfl⟩ := List.getElem_of_mem member
  by_cases same : j = i
  · subst same
    rw [List.getElem?_eq_getElem inside, Option.some.injEq] at there
    exact .inr there
  · exact .inl (List.mem_eraseIdx_iff_getElem.mpr ⟨j, inside, same, rfl⟩)

/-! What the small steps leave alone. -/

@[simp] theorem PeerStore.settle_told (store : PeerStore) (push : Push) (nowMs : Nat) :
    (store.settle push nowMs).told = store.told := by
  unfold PeerStore.settle
  split <;> split <;> rfl

@[simp] theorem PeerStore.owes_told (store : PeerStore) (room : String) (nowMs : Nat) :
    (store.owes room nowMs).2.told = store.told := by
  unfold PeerStore.owes
  simp only
  split <;> rfl

@[simp] theorem PeerStore.deliver_told (store : PeerStore) (sid : String) (nowMs : Nat) (rooms : List String) :
    (store.deliver sid nowMs rooms).1.told = store.told := by
  induction rooms generalizing store with
  | nil => rfl
  | cons room rest ih =>
    unfold PeerStore.deliver
    have kept := store.owes_told room nowMs
    split
    · rename_i event store' owed
      rw [owed] at kept
      exact kept
    · rename_i store' owed
      rw [owed] at kept
      exact (ih store').trans kept

/-- A join is a push of no kind: all it logs is the joins themselves. -/
theorem PeerStore.deliver_log (store : PeerStore) (sid : String) (nowMs : Nat) (rooms : List String) :
    ∀ e ∈ (store.deliver sid nowMs rooms).2.1, ∃ room, e = .joined (.socketio sid) room nowMs := by
  induction rooms generalizing store with
  | nil => exact fun e none => nomatch none
  | cons room rest ih =>
    unfold PeerStore.deliver
    split
    · intro e member
      exact ⟨room, List.mem_singleton.mp member⟩
    · rename_i store' owed
      intro e member
      obtain rfl | later := List.mem_cons.mp member
      · exact ⟨room, rfl⟩
      · exact ih store' e later

/-- An answer finds no task, or takes the head of one. -/
theorem answer_cases (w : PeerWorld) (i : Nat) (reach : Reach) (nowMs : Nat) :
    answer w i reach nowMs = (w, []) ∨
      ∃ push sid rest, w.pushes[i]? = some push ∧ push.remaining = sid :: rest ∧
        answer w i reach nowMs =
          (match rest with
          | [] =>
            { w with
              store := w.store.settle
                { push with remaining := [], delivered := push.delivered + if reach.ok then 1 else 0 } nowMs
              pushes := w.pushes.eraseIdx i }
          | _ =>
            { w with
              pushes := w.pushes.set i
                { push with remaining := rest, delivered := push.delivered + if reach.ok then 1 else 0 } },
            reached w.dead (.socketio sid) push.room push.event reach) := by
  unfold answer
  cases there : w.pushes[i]? with
  | none => exact .inl rfl
  | some push =>
    cases left : push.remaining with
    | nil => exact .inl (by simp [left])
    | cons sid rest =>
      refine .inr ⟨push, sid, rest, rfl, left, ?_⟩
      simp only [left]
      cases rest <;> rfl

end MessageRelay.Presence
