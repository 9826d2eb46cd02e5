import MessageRelay.Presence.Pushes

/-! What a push that reached nobody owes the next session to join. The hub counts a broadcast that did not fail, not
one that was received; what it counted it parks for no one, and of an arrival it keeps nothing at all. -/

namespace MessageRelay.Presence
open Library

/-- A flip no live session has heard of. `miscounted` says that an answer was counted all the same. -/
structure Debt where
  event : ToldPresence
  atMs : Nat
  miscounted : Bool
  deriving DecidableEq, Repr

/-- What the log says is owed: the debt of each room, and the events promised to sessions that have joined. -/
structure Account where
  debts : String → Option Debt
  promises : List (Session × String × ToldPresence)

/-- A flip makes a debt; whoever hears of it pays it; the first to join within the time has its promise. -/
def Account.after (a : Account) : PeerEvent → Account
  | .flipped room event atMs _ => { a with debts := Function.update a.debts room (some ⟨event, atMs, false⟩) }
  | .told _ room event =>
    { a with debts := Function.update a.debts room ((a.debts room).filter (fun d => d.event ≠ event)) }
  | .miscounted room =>
    { a with debts := Function.update a.debts room ((a.debts room).map (fun d => { d with miscounted := true })) }
  | .joined session room atMs =>
    { debts := Function.update a.debts room none
      promises :=
        ((a.debts room).filter (fun d => atMs ≤ d.atMs + parkedPeerLeftTtlMs)).toList.map
          (fun d => (session, room, d.event)) ++ a.promises }
  | .delivered session room event => { a with promises := a.promises.filter (fun p => p ≠ (session, room, event)) }

def account (log : List PeerEvent) : Account :=
  log.foldl Account.after ⟨fun _ => none, []⟩

/-- Once every push and delivery has finished, no promise is open. -/
def NothingLost (c : PeerConfig) : Prop :=
  c.state.pushes = [] → c.state.deliveries = [] → (account c.log).promises = []

def PeerStore.parked (store : PeerStore) : ToldPresence → String → Option Parked
  | .present => store.parkedJoined
  | .absent => store.parkedLeft

/-- A debt falls due at a join: it is young enough. -/
def Account.due (a : Account) (room : String) (nowMs : Nat) : Option Debt :=
  (a.debts room).filter (fun d => nowMs ≤ d.atMs + parkedPeerLeftTtlMs)

/-- Where a debt falls due, no push of the room is running, and either nothing was counted that nobody received, or an
event of the same kind is parked and fresh, or a departure can still be replayed with nothing parked in its way. -/
def Serves (store : PeerStore) (a : Account) (pushes : List Push) (room : String) (nowMs : Nat) : Prop :=
  ∀ d ∈ a.due room nowMs, (∀ push ∈ pushes, push.room ≠ room) ∧
    (d.miscounted = false ∨
      (store.parked d.event room).any (fun p => parkedPeerLeftIsFresh p.atMs nowMs) = true ∨
      (d.event = .absent ∧ store.parkedLeft room = none ∧ store.parkedJoined room = none ∧
        (store.lastLeft room).any (fun last => nowMs - last.atMs ≤ peerLeftReplayMs) = true))

/-- The same, room by room, for the rooms a delivery comes to before it awaits an answer. -/
def Served (pushes : List Push) (sid : String) (nowMs : Nat) : PeerStore → Account → List String → Prop
  | _, _, [] => True
  | store, a, room :: rest =>
    Serves store a pushes room nowMs ∧
      ((store.owes room nowMs).1 = none →
        Served pushes sid nowMs (store.owes room nowMs).2 (a.after (.joined (.socketio sid) room nowMs)) rest)

/-- The condition on one step. -/
def Dutiful (c : PeerConfig) : PeerInput → Prop
  | .answer i _ nowMs =>
    c.state.pushes[i]?.all (fun push => ((account c.log).debts push.room).all (fun d => d.atMs ≤ nowMs)) = true
  | .join sid room nowMs =>
    sid ≠ "" →
      if room ∈ ((c.state.registry.find? sid).getD (freshSocketioEntry sid nowMs)).joinedRooms
      then (account c.log).due room nowMs = none
      else Serves c.state.store (account c.log) c.state.pushes room nowMs
  | .register sid nowMs =>
    Served c.state.pushes sid nowMs c.state.store (account c.log)
      (((c.state.registry.find? sid).map SocketIoRegistryEntry.joinedRooms).getD [])
  | .rawJoin _ room nowMs => (account c.log).due room nowMs = none
  | .reach i received =>
    ∀ d ∈ c.state.deliveries[i]?,
      ((.socketio d.sid, d.room, d.event) ∈ (account c.log).promises →
        received = true ∧ c.state.dead (.socketio d.sid) = false) ∧
      Served c.state.pushes d.sid d.nowMs c.state.store (account c.log) d.rest
  | _ => True

instance (store : PeerStore) (a : Account) (pushes : List Push) (room : String) (nowMs : Nat) :
    Decidable (Serves store a pushes room nowMs) :=
  inferInstanceAs (Decidable (∀ d ∈ a.due room nowMs, _))

instance decidableServed (pushes : List Push) (sid : String) (nowMs : Nat) (store : PeerStore) (a : Account)
    (rooms : List String) : Decidable (Served pushes sid nowMs store a rooms) :=
  match rooms with
  | [] => .isTrue trivial
  | room :: rest =>
    have := decidableServed pushes sid nowMs (store.owes room nowMs).2 (a.after (.joined (.socketio sid) room nowMs)) rest
    inferInstanceAs (Decidable (_ ∧ (_ → _)))

instance (c : PeerConfig) (input : PeerInput) : Decidable (Dutiful c input) :=
  match input with
  | .answer .. => inferInstanceAs (Decidable (_ = true))
  | .join sid room nowMs =>
    inferInstanceAs (Decidable (sid ≠ "" →
      if room ∈ ((c.state.registry.find? sid).getD (freshSocketioEntry sid nowMs)).joinedRooms
      then (account c.log).due room nowMs = none
      else Serves c.state.store (account c.log) c.state.pushes room nowMs))
  | .register sid nowMs =>
    inferInstanceAs (Decidable (Served c.state.pushes sid nowMs c.state.store (account c.log)
      (((c.state.registry.find? sid).map SocketIoRegistryEntry.joinedRooms).getD [])))
  | .rawJoin .. => inferInstanceAs (Decidable (_ = none))
  | .reach i received =>
    inferInstanceAs (Decidable (∀ d ∈ c.state.deliveries[i]?,
      ((.socketio d.sid, d.room, d.event) ∈ (account c.log).promises →
        received = true ∧ c.state.dead (.socketio d.sid) = false) ∧
      Served c.state.pushes d.sid d.nowMs c.state.store (account c.log) d.rest))
  | .push .. | .leave .. | .unregister .. | .list .. | .rawOpen .. | .rawLeave .. | .rawClose .. | .die .. =>
    .isTrue trivial

/-- Every debt is the told-state; one nobody was counted for has its push still running or is parked; and every promise
has its delivery running. -/
structure Owing (a : Account) (w : PeerWorld) : Prop where
  told : ∀ room d, a.debts room = some d → w.store.told room = some d.event
  backed : ∀ room d, a.debts room = some d → d.miscounted = false →
    (∃ push ∈ w.pushes, push.room = room ∧ push.event = d.event ∧ push.delivered = 0) ∨
      ∃ p, w.store.parked d.event room = some p ∧ d.atMs ≤ p.atMs
  promised : ∀ p ∈ a.promises, ∃ d ∈ w.deliveries, p = (.socketio d.sid, d.room, d.event)

theorem Owing.nothingLost {c : PeerConfig} (owing : Owing (account c.log) c.state) : NothingLost c := by
  intro _ noDelivery
  refine List.eq_nil_iff_forall_not_mem.mpr (fun p member => ?_)
  obtain ⟨d, running, -⟩ := owing.promised p member
  rw [noDelivery] at running
  cases running

theorem account_append (log new : List PeerEvent) : account (log ++ new) = new.foldl Account.after (account log) :=
  List.foldl_append ..

/-! The join's side. -/

theorem due_eq_some {a : Account} {room : String} {nowMs : Nat} {d : Debt} :
    a.due room nowMs = some d ↔ a.debts room = some d ∧ nowMs ≤ d.atMs + parkedPeerLeftTtlMs := by
  simp [Account.due, Option.filter_eq_some_iff]

theorem promises_joined (a : Account) (session : Session) (room : String) (atMs : Nat) :
    (a.after (.joined session room atMs)).promises =
      (a.due room atMs).toList.map (fun d => (session, room, d.event)) ++ a.promises := rfl

/-- The told-state rules the other kind out. -/
theorem parkedPresenceChoice_joined (left : Option Nat) {joined nowMs : Nat}
    (fresh : parkedPeerLeftIsFresh joined nowMs = true) :
    parkedPresenceChoice left (some joined) (some .present) nowMs = .joined := by
  have out (o : Option Nat) : o.filter (fun _ => decide (some ToldPresence.present ≠ some .present)) = none := by
    cases o <;> rfl
  have kept : ((some joined).filter (fun t => parkedPeerLeftIsFresh t nowMs)).filter
      (fun _ => decide (some ToldPresence.present ≠ some .absent)) = some joined := by
    simp [Option.filter, fresh]
  simp only [parkedPresenceChoice, out, kept]

theorem parkedPresenceChoice_left (joined : Option Nat) {left nowMs : Nat}
    (fresh : parkedPeerLeftIsFresh left nowMs = true) :
    parkedPresenceChoice (some left) joined (some .absent) nowMs = .left := by
  have out (o : Option Nat) : o.filter (fun _ => decide (some ToldPresence.absent ≠ some .absent)) = none := by
    cases o <;> rfl
  have kept : ((some left).filter (fun t => parkedPeerLeftIsFresh t nowMs)).filter
      (fun _ => decide (some ToldPresence.absent ≠ some .present)) = some left := by
    simp [Option.filter, fresh]
  simp only [parkedPresenceChoice, out, kept]

/-- What is parked for the told-state and fresh is what the room owes. -/
theorem owes_of_parked {store : PeerStore} {room : String} {nowMs : Nat} {event : ToldPresence} {p : Parked}
    (told : store.told room = some event) (parked : store.parked event room = some p)
    (fresh : parkedPeerLeftIsFresh p.atMs nowMs = true) : (store.owes room nowMs).1 = some event := by
  unfold PeerStore.owes
  cases event with
  | present =>
    have joined : store.parkedJoined room = some p := parked
    simp [joined, told, parkedPresenceChoice_joined _ fresh]
  | absent =>
    have left : store.parkedLeft room = some p := parked
    simp [left, told, parkedPresenceChoice_left _ fresh]

/-- A debt that falls due is what the room owes. -/
theorem owes_of_serves {a : Account} {w : PeerWorld} (owing : Owing a w) {room : String} {nowMs : Nat}
    (serves : Serves w.store a w.pushes room nowMs) {d : Debt} (due : a.due room nowMs = some d) :
    (w.store.owes room nowMs).1 = some d.event := by
  obtain ⟨debt, young⟩ := due_eq_some.mp due
  have told := owing.told room d debt
  obtain ⟨noPush, counted | parked | ⟨absent, noLeft, noJoined, last⟩⟩ := serves d due
  · obtain ⟨push, running, here, -⟩ | ⟨p, parked, later⟩ := owing.backed room d debt counted
    · exact absurd here (noPush push running)
    · refine owes_of_parked told parked ?_
      simp only [parkedPeerLeftIsFresh, decide_eq_true_eq]
      omega
  · obtain ⟨p, found, fresh⟩ := (Option.any_eq_true _ _).mp parked
    exact owes_of_parked told found fresh
  · obtain ⟨last, found, recent⟩ := (Option.any_eq_true _ _).mp last
    rw [absent] at told ⊢
    simp only [PeerStore.owes, noLeft, noJoined, found, told, departureReplayDue, Option.isNone_none, Bool.and_self,
      if_true, Option.map_some]
    simpa using recent

/-- Clearing a room's parked keys leaves the other rooms' alone. -/
theorem owes_parked (store : PeerStore) {room other : String} (apart : other ≠ room) (nowMs : Nat)
    (event : ToldPresence) : (store.owes room nowMs).2.parked event other = store.parked event other := by
  unfold PeerStore.owes
  simp only
  split
  · rfl
  · cases event <;> simp [PeerStore.parked, apart]

/-- One room's turn: the debt is closed, and a promise it makes has its delivery. -/
theorem Owing.turn {a : Account} {w : PeerWorld} (owing : Owing a w) (sid : String) {room : String} {nowMs : Nat}
    (serves : Serves w.store a w.pushes room nowMs) (rest : List String) :
    Owing (a.after (.joined (.socketio sid) room nowMs))
      { w with
        store := (w.store.owes room nowMs).2
        deliveries := w.deliveries ++
          ((w.store.owes room nowMs).1.map (fun event => ({ sid, nowMs, room, event, rest } : Delivery))).toList } := by
  have elsewhere {other : String} {d : Debt}
      (debt : (a.after (.joined (.socketio sid) room nowMs)).debts other = some d) :
      other ≠ room ∧ a.debts other = some d := by
    by_cases same : other = room
    · subst same
      simp [Account.after] at debt
    · exact ⟨same, by simpa [Account.after, same] using debt⟩
  refine ⟨?_, ?_, ?_⟩
  · intro other d debt
    rw [PeerStore.owes_told]
    exact owing.told other d (elsewhere debt).2
  · intro other d debt counted
    obtain ⟨apart, debt⟩ := elsewhere debt
    obtain running | ⟨p, parked, later⟩ := owing.backed other d debt counted
    · exact .inl running
    · refine .inr ⟨p, ?_, later⟩
      rw [owes_parked _ apart]
      exact parked
  · intro p member
    rw [promises_joined] at member
    obtain new | old := List.mem_append.mp member
    · obtain ⟨d, due, rfl⟩ := List.mem_map.mp new
      rw [owes_of_serves owing serves (Option.mem_toList.mp due)]
      exact ⟨_, List.mem_append_right _ (List.mem_singleton_self _), rfl⟩
    · obtain ⟨d, running, same⟩ := owing.promised p old
      exact ⟨d, List.mem_append_left _ running, same⟩

/-- The loop of a delivery. -/
theorem Owing.deliver {a : Account} {w : PeerWorld} (owing : Owing a w) {sid : String} {nowMs : Nat}
    {rooms : List String} (served : Served w.pushes sid nowMs w.store a rooms) :
    Owing ((w.deliver sid nowMs rooms).2.foldl Account.after a) (w.deliver sid nowMs rooms).1 := by
  unfold PeerWorld.deliver
  induction rooms generalizing a w with
  | nil => simpa [PeerStore.deliver] using owing
  | cons room rest ih =>
    obtain ⟨serves, later⟩ := served
    have turn := owing.turn sid serves rest
    unfold PeerStore.deliver
    cases owed : w.store.owes room nowMs with
    | mk event store' =>
    rw [owed] at turn later
    cases event with
    | some event => simpa using turn
    | none =>
      simp only [Option.map_none, Option.toList_none, List.append_nil] at turn
      exact ih turn (later rfl)

/-- A join that finds no debt due and is brought nothing. -/
theorem Owing.joined {a : Account} {w : PeerWorld} (owing : Owing a w) {session : Session} {room : String} {nowMs : Nat}
    (none : a.due room nowMs = none) : Owing (a.after (.joined session room nowMs)) w := by
  have elsewhere {other : String} {d : Debt} (debt : (a.after (.joined session room nowMs)).debts other = some d) :
      a.debts other = some d := by
    by_cases same : other = room
    · subst same
      simp [Account.after] at debt
    · simpa [Account.after, same] using debt
  refine ⟨fun other d debt => owing.told other d (elsewhere debt),
    fun other d debt => owing.backed other d (elsewhere debt), fun p member => owing.promised p ?_⟩
  rw [promises_joined, none] at member
  exact member

/-! The push's side. -/

/-- What one session's answer does to the account. -/
theorem after_reached (a : Account) (dead : Session → Bool) (session : Session) (room : String) (event : ToldPresence)
    (reach : Reach) :
    ((reached dead session room event reach).foldl Account.after a).promises = a.promises ∧
      (∀ other, other ≠ room →
        ((reached dead session room event reach).foldl Account.after a).debts other = a.debts other) ∧
      ∀ d, ((reached dead session room event reach).foldl Account.after a).debts room = some d →
        ∃ d', a.debts room = some d' ∧ d.event = d'.event ∧ d.atMs = d'.atMs ∧
          (d.miscounted = false → d'.miscounted = false ∧ (d'.event = event → reach.ok = false)) := by
  unfold reached
  split
  · refine ⟨rfl, fun other apart => by simp [Account.after, apart], fun d debt => ?_⟩
    simp only [List.foldl_cons, List.foldl_nil, Account.after, Function.update_self, Option.filter_eq_some_iff,
      decide_eq_true_eq] at debt
    exact ⟨d, debt.1, rfl, rfl, fun counted => ⟨counted, fun same => absurd same debt.2⟩⟩
  · split
    · refine ⟨rfl, fun other apart => by simp [Account.after, apart], fun d debt => ?_⟩
      simp only [List.foldl_cons, List.foldl_nil, Account.after, Function.update_self, Option.map_eq_some_iff] at debt
      obtain ⟨d', before, rfl⟩ := debt
      exact ⟨d', before, rfl, rfl, fun counted => nomatch counted⟩
    · rename_i uncounted
      exact ⟨rfl, fun other _ => rfl, fun d debt => ⟨d, debt, rfl, rfl, fun counted =>
        ⟨counted, fun _ => by simpa using uncounted⟩⟩⟩

/-- What the writes to a room's raw sockets do to the account. -/
theorem after_sockets (a : Account) (dead : Session → Bool) (room : String) (event : ToldPresence)
    (reach : Nat → Reach) (sockets : List RawSocket) :
    let new := sockets.flatMap (fun s => reached dead (.raw s.id) room event (reach s.id))
    (new.foldl Account.after a).promises = a.promises ∧
      (∀ other, other ≠ room → (new.foldl Account.after a).debts other = a.debts other) ∧
      ∀ d, (new.foldl Account.after a).debts room = some d →
        ∃ d', a.debts room = some d' ∧ d.event = d'.event ∧ d.atMs = d'.atMs ∧
          (d.miscounted = false →
            d'.miscounted = false ∧ (d'.event = event → ∀ s ∈ sockets, (reach s.id).ok = false)) := by
  induction sockets generalizing a with
  | nil =>
    refine ⟨rfl, fun _ _ => rfl, fun d debt => ⟨d, debt, rfl, rfl, fun counted => ⟨counted, fun _ s none => ?_⟩⟩⟩
    cases none
  | cons socket rest ih =>
    obtain ⟨promises, others, own⟩ := after_reached a dead (.raw socket.id) room event (reach socket.id)
    obtain ⟨promises', others', own'⟩ :=
      ih ((reached dead (.raw socket.id) room event (reach socket.id)).foldl Account.after a)
    simp only [List.flatMap_cons, List.foldl_append]
    refine ⟨promises'.trans promises, fun other apart => (others' other apart).trans (others other apart),
      fun d debt => ?_⟩
    obtain ⟨d₁, middle, event₁, at₁, counted₁⟩ := own' d debt
    obtain ⟨d₂, before, event₂, at₂, counted₂⟩ := own d₁ middle
    refine ⟨d₂, before, event₁.trans event₂, at₁.trans at₂, fun counted => ?_⟩
    obtain ⟨clean, rest'⟩ := counted₁ counted
    obtain ⟨clean', first⟩ := counted₂ clean
    refine ⟨clean', fun same s member => ?_⟩
    obtain rfl | later := List.mem_cons.mp member
    · exact first same
    · exact rest' (event₂.trans same) s later

theorem settle_parked_of_ne (store : PeerStore) (push : Push) {nowMs : Nat} {room : String} (apart : room ≠ push.room)
    (event : ToldPresence) : (store.settle push nowMs).parked event room = store.parked event room := by
  unfold PeerStore.settle
  split <;> split <;> cases event <;> simp [PeerStore.parked, apart]

/-- A settled push that nobody was counted for is parked. -/
theorem settle_parked (store : PeerStore) {push : Push} (nobody : push.delivered = 0) (nowMs : Nat) :
    (store.settle push nowMs).parked push.event push.room = some ⟨push.who, nowMs⟩ := by
  unfold PeerStore.settle
  cases event : push.event <;> simp [PeerStore.parked, nobody]

/-- Settling can only make a room's parked event younger. -/
theorem settle_parked_later {store : PeerStore} {push : Push} {nowMs : Nat} {event : ToldPresence} {p : Parked}
    {room : String} (parked : store.parked event room = some p) {atMs : Nat} (later : atMs ≤ p.atMs)
    (now : room = push.room → atMs ≤ nowMs) :
    ∃ p', (store.settle push nowMs).parked event room = some p' ∧ atMs ≤ p'.atMs := by
  by_cases same : room = push.room
  · unfold PeerStore.settle
    cases pushed : push.event <;> simp only <;> split <;> cases event <;> simp only [PeerStore.parked] at parked ⊢ <;>
      first
      | exact ⟨p, parked, later⟩
      | exact ⟨_, by rw [same, Function.update_self], now same⟩
  · exact ⟨p, by rw [settle_parked_of_ne store push same]; exact parked, later⟩

/-- A push's next session answers. -/
theorem owing_answer {c : PeerConfig} (owing : Owing (account c.log) c.state) {i : Nat} {reach : Reach} {nowMs : Nat}
    (dutiful : Dutiful c (.answer i reach nowMs)) :
    Owing (account (peerMachine.advance c (.answer i reach nowMs)).log)
      (peerMachine.advance c (.answer i reach nowMs)).state := by
  show Owing (account (c.log ++ (answer c.state i reach nowMs).2)) (answer c.state i reach nowMs).1
  rw [account_append]
  obtain same | ⟨push, sid, rest, there, left, same⟩ := answer_cases c.state i reach nowMs
  · rw [same]
    exact owing
  · obtain ⟨promises, others, own⟩ :=
      after_reached (account c.log) c.state.dead (.socketio sid) push.room push.event reach
    have now (d : Debt) (debt : (account c.log).debts push.room = some d) : d.atMs ≤ nowMs := by
      simpa [Dutiful, there, debt] using dutiful
    let push' : Push := { push with remaining := rest, delivered := push.delivered + if reach.ok then 1 else 0 }
    have follow (pushes : List Push) (store : PeerStore) (tells : store.told = c.state.store.told)
        (stays : ∀ q ∈ c.state.pushes, q ∈ pushes ∨ q = push)
        (later : ∀ event room p atMs, c.state.store.parked event room = some p → atMs ≤ p.atMs →
          (room = push.room → atMs ≤ nowMs) → ∃ p', store.parked event room = some p' ∧ atMs ≤ p'.atMs)
        (next : push'.delivered = 0 →
          push' ∈ pushes ∨ ∃ p, store.parked push.event push.room = some p ∧ p.atMs = nowMs) :
        Owing ((reached c.state.dead (.socketio sid) push.room push.event reach).foldl Account.after (account c.log))
          { c.state with store, pushes } := by
      refine ⟨?_, ?_, ?_⟩
      · intro room d debt
        show store.told room = _
        rw [tells]
        by_cases here : room = push.room
        · subst here
          obtain ⟨d', before, event, -⟩ := own d debt
          rw [event]
          exact owing.told _ d' before
        · rw [others room here] at debt
          exact owing.told room d debt
      · intro room d debt counted
        by_cases here : room = push.room
        · subst here
          obtain ⟨d', before, event, atMs, clean⟩ := own d debt
          obtain ⟨clean, uncounted⟩ := clean counted
          rw [event, atMs]
          obtain ⟨q, running, place, kind, nobody⟩ | ⟨p, parked, young⟩ := owing.backed _ d' before clean
          · obtain stayed | rfl := stays q running
            · exact .inl ⟨q, stayed, place, kind, nobody⟩
            · have none : push'.delivered = 0 := by
                simp [push', nobody, uncounted kind.symm]
              obtain stays | ⟨p, parked, stamped⟩ := next none
              · exact .inl ⟨push', stays, rfl, kind, none⟩
              · exact .inr ⟨p, kind ▸ parked, by rw [stamped]; exact now d' before⟩
          · exact .inr (later _ _ p _ parked young (fun _ => now d' before))
        · rw [others room here] at debt
          obtain ⟨q, running, place, kind, nobody⟩ | ⟨p, parked, young⟩ := owing.backed room d debt counted
          · obtain stayed | rfl := stays q running
            · exact .inl ⟨q, stayed, place, kind, nobody⟩
            · exact absurd place.symm here
          · exact .inr (later _ _ p _ parked young (fun same => absurd same here))
      · intro p member
        rw [promises] at member
        exact owing.promised p member
    rw [same]
    cases rest with
    | nil =>
      refine follow _ _ (PeerStore.settle_told _ push' _) (fun q member => mem_eraseIdx_or_eq there member) ?_ ?_
      · exact fun event room p atMs parked young same => settle_parked_later parked young same
      · exact fun nobody => .inr ⟨_, settle_parked _ nobody nowMs, rfl⟩
    | cons first later =>
      refine follow _ _ rfl (fun q member => mem_set_or_eq there _ member) ?_ ?_
      · exact fun event room p atMs parked young _ => ⟨p, parked, young⟩
      · exact fun _ => .inl (List.mem_set (List.getElem?_eq_some_iff.mp there).1 _)

/-- A flip makes its debt, which its push or the parked event backs. -/
theorem owing_handlePeer {c : PeerConfig} (owing : Owing (account c.log) c.state) (present : Bool) (room who : String)
    (nowMs : Nat) (reach : Nat → Reach) :
    Owing (account (peerMachine.advance c (.push present room who nowMs reach)).log)
      (peerMachine.advance c (.push present room who nowMs reach)).state := by
  show Owing (account (c.log ++ (handlePeer c.state present room who nowMs reach).2))
    (handlePeer c.state present room who nowMs reach).1
  rw [account_append]
  unfold handlePeer
  cases flips : toldTransition (c.state.store.told room) present with
  | mk emitIt event =>
  cases emitIt with
  | false => exact owing
  | true =>
    simp only [Bool.not_true, Bool.false_eq_true, if_false, List.foldl_cons]
    let flipped := (account c.log).after (.flipped room event nowMs (holders c.state room nowMs))
    have debt₀ : flipped.debts room = some ⟨event, nowMs, false⟩ := by simp [flipped, Account.after]
    obtain ⟨promises, others, own⟩ :=
      after_sockets flipped c.state.dead room event reach (roomSockets c.state room)
    have elsewhere (other : String) (apart : other ≠ room) : flipped.debts other = (account c.log).debts other := by
      simp [flipped, Account.after, apart]
    let counted := ((roomSockets c.state room).filter (fun s => (reach s.id).ok)).length
    have follow (store : PeerStore) (pushes : List Push) (registry : Registry)
        (tells : store.told = Function.update c.state.store.told room (some event))
        (older : ∀ q ∈ c.state.pushes, q ∈ pushes)
        (same : ∀ event other, other ≠ room → store.parked event other = c.state.store.parked event other)
        (next : counted = 0 →
          (∃ push ∈ pushes, push.room = room ∧ push.event = event ∧ push.delivered = 0) ∨
            ∃ p, store.parked event room = some p ∧ nowMs ≤ p.atMs) :
        Owing (((roomSockets c.state room).flatMap
          (fun s => reached c.state.dead (.raw s.id) room event (reach s.id))).foldl Account.after flipped)
          { c.state with registry, store, pushes } := by
      refine ⟨?_, ?_, ?_⟩
      · intro other d debt
        show store.told other = _
        rw [tells]
        by_cases here : other = room
        · subst here
          obtain ⟨d', before, kind, -⟩ := own d debt
          rw [debt₀, Option.some.injEq] at before
          rw [Function.update_self, kind, ← before]
        · rw [Function.update_of_ne here]
          rw [others other here, elsewhere other here] at debt
          exact owing.told other d debt
      · intro other d debt clean
        by_cases here : other = room
        · subst here
          obtain ⟨d', before, kind, atMs, clean'⟩ := own d debt
          rw [debt₀, Option.some.injEq] at before
          subst before
          have uncounted := (clean' clean).2 rfl
          have nobody : counted = 0 := by
            simp only [counted, List.length_eq_zero_iff, List.filter_eq_nil_iff, Bool.not_eq_true]
            exact uncounted
          rw [kind, atMs]
          exact next nobody
        · rw [others other here, elsewhere other here] at debt
          obtain ⟨q, running, backs⟩ | ⟨p, parked, young⟩ := owing.backed other d debt clean
          · exact .inl ⟨q, older q running, backs⟩
          · exact .inr ⟨p, by rw [same _ other here]; exact parked, young⟩
      · intro p member
        rw [promises] at member
        exact owing.promised p member
    cases listed : (listLive nowMs c.state.registry).rows.map SocketIoRegistryEntry.sid with
    | nil =>
      refine follow _ _ _ (PeerStore.settle_told _ _ _) (fun q member => member) (fun kind other apart => ?_)
        (fun nobody => .inr ⟨_, settle_parked _ nobody nowMs, le_rfl⟩)
      refine (settle_parked_of_ne _ _ ?_ kind).trans ?_
      · exact apart
      · cases kind <;> rfl
    | cons first rest =>
      refine follow _ _ _ rfl (fun q member => List.mem_append_left _ member) (fun kind other _ => ?_)
        (fun nobody => .inl ⟨_, List.mem_append_right _ (List.mem_singleton_self _), rfl, rfl, nobody⟩)
      cases kind <;> rfl

/-! The steps. -/

theorem owing_join {c : PeerConfig} (owing : Owing (account c.log) c.state) {sid room : String} {nowMs : Nat}
    (dutiful : Dutiful c (.join sid room nowMs)) :
    Owing (account (peerMachine.advance c (.join sid room nowMs)).log)
      (peerMachine.advance c (.join sid room nowMs)).state := by
  show Owing (account (c.log ++ (socketioJoin c.state sid room nowMs).2)) (socketioJoin c.state sid room nowMs).1
  rw [account_append]
  have moved : Owing (account c.log) { c.state with registry := joinRoom c.state.registry allTake sid room nowMs } :=
    ⟨owing.told, owing.backed, owing.promised⟩
  unfold socketioJoin
  by_cases named : sid = ""
  · rw [if_pos named]
    exact owing
  · have serves := dutiful named
    rw [if_neg named]
    simp only
    split
    · rename_i held
      rw [if_pos held] at serves
      exact moved.joined serves
    · rename_i fresh
      rw [if_neg fresh] at serves
      exact moved.deliver ⟨serves, fun _ => trivial⟩

theorem owing_register {c : PeerConfig} (owing : Owing (account c.log) c.state) {sid : String} {nowMs : Nat}
    (dutiful : Dutiful c (.register sid nowMs)) :
    Owing (account (peerMachine.advance c (.register sid nowMs)).log)
      (peerMachine.advance c (.register sid nowMs)).state := by
  show Owing (account (c.log ++ (socketioRegister c.state sid nowMs).2)) (socketioRegister c.state sid nowMs).1
  rw [account_append]
  have moved : Owing (account c.log)
      { c.state with registry := handleSocketioRegister c.state.registry allTake sid nowMs } :=
    ⟨owing.told, owing.backed, owing.promised⟩
  unfold socketioRegister
  split
  · exact owing
  · exact moved.deliver dutiful

/-- The condition reads the debts alone. -/
theorem served_congr {pushes : List Push} {sid : String} {nowMs : Nat} {store : PeerStore} {a b : Account}
    (same : a.debts = b.debts) {rooms : List String} (served : Served pushes sid nowMs store a rooms) :
    Served pushes sid nowMs store b rooms := by
  induction rooms generalizing store a b with
  | nil => trivial
  | cons room rest ih =>
    refine ⟨?_, fun none => ih ?_ (served.2 none)⟩
    · have serves := served.1
      unfold Serves Account.due at serves ⊢
      rwa [← same]
    · simp only [Account.after, same]

/-- A promised event reaches its session. -/
theorem owing_reachDelivery {c : PeerConfig} (owing : Owing (account c.log) c.state) {i : Nat} {received : Bool}
    (dutiful : Dutiful c (.reach i received)) :
    Owing (account (peerMachine.advance c (.reach i received)).log)
      (peerMachine.advance c (.reach i received)).state := by
  show Owing (account (c.log ++ (reachDelivery c.state i received).2)) (reachDelivery c.state i received).1
  rw [account_append]
  unfold reachDelivery
  cases there : c.state.deliveries[i]? with
  | none => exact owing
  | some d =>
    obtain ⟨reaches, served⟩ := dutiful d there
    simp only [List.foldl_append]
    let triple : Session × String × ToldPresence := (.socketio d.sid, d.room, d.event)
    have follow (a : Account) (debts : a.debts = (account c.log).debts)
        (promises : ∀ p ∈ a.promises, p ∈ (account c.log).promises ∧ p ≠ triple) :
        Owing a { c.state with deliveries := c.state.deliveries.eraseIdx i } := by
      refine ⟨fun room d debt => owing.told room d (debts ▸ debt), fun room d debt => owing.backed room d (debts ▸ debt),
        fun p member => ?_⟩
      obtain ⟨before, apart⟩ := promises p member
      obtain ⟨d', running, same⟩ := owing.promised p before
      obtain stays | rfl := mem_eraseIdx_or_eq there running
      · exact ⟨d', stays, same⟩
      · exact absurd same apart
    by_cases heard : (received && !c.state.dead (.socketio d.sid)) = true
    · rw [if_pos heard]
      refine Owing.deliver (follow ((account c.log).after (.delivered (.socketio d.sid) d.room d.event)) rfl
        (fun p member => ?_)) ?_
      · obtain ⟨before, apart⟩ := List.mem_filter.mp member
        exact ⟨before, by simpa using apart⟩
      · have same : (account c.log).debts =
            ((account c.log).after (.delivered (.socketio d.sid) d.room d.event)).debts := rfl
        exact served_congr same served
    · rw [if_neg heard]
      refine Owing.deliver (follow _ rfl (fun p member => ⟨member, ?_⟩)) served
      rintro rfl
      obtain ⟨got, live⟩ := reaches member
      exact heard (by simp [got, live])

theorem owing_rawJoin {c : PeerConfig} (owing : Owing (account c.log) c.state) {id : Nat} {room : String} {nowMs : Nat}
    (dutiful : Dutiful c (.rawJoin id room nowMs)) :
    Owing (account (peerMachine.advance c (.rawJoin id room nowMs)).log)
      (peerMachine.advance c (.rawJoin id room nowMs)).state := by
  have moved : Owing (account c.log) (peerStep c.state (.rawJoin id room nowMs)).1 :=
    ⟨owing.told, owing.backed, owing.promised⟩
  show Owing (account (c.log ++ if (c.state.sockets.find? id).isSome then [.joined (.raw id) room nowMs] else []))
    (peerStep c.state (.rawJoin id room nowMs)).1
  rw [account_append]
  split
  · exact moved.joined dutiful
  · exact moved

/-- A step that logs nothing and leaves the store and the tasks alone. -/
theorem owing_quiet {c : PeerConfig} (owing : Owing (account c.log) c.state) {input : PeerInput}
    (log : (peerStep c.state input).2 = []) (store : (peerStep c.state input).1.store = c.state.store)
    (pushes : (peerStep c.state input).1.pushes = c.state.pushes)
    (deliveries : (peerStep c.state input).1.deliveries = c.state.deliveries) :
    Owing (account (peerMachine.advance c input).log) (peerMachine.advance c input).state := by
  show Owing (account (c.log ++ (peerStep c.state input).2)) (peerStep c.state input).1
  rw [log, List.append_nil]
  refine ⟨?_, ?_, ?_⟩
  · rw [store]
    exact owing.told
  · rw [store, pushes]
    exact owing.backed
  · rw [deliveries]
    exact owing.promised

theorem owing_advance (c : PeerConfig) (input : PeerInput) (owing : Owing (account c.log) c.state)
    (dutiful : Dutiful c input) :
    Owing (account (peerMachine.advance c input).log) (peerMachine.advance c input).state := by
  cases input with
  | push present room who nowMs reach => exact owing_handlePeer owing present room who nowMs reach
  | answer i reach nowMs => exact owing_answer owing dutiful
  | join sid room nowMs => exact owing_join owing dutiful
  | register sid nowMs => exact owing_register owing dutiful
  | reach i received => exact owing_reachDelivery owing dutiful
  | rawJoin id room nowMs => exact owing_rawJoin owing dutiful
  | leave sid room nowMs | list nowMs | rawOpen id identityKey nowMs | rawLeave id room | unregister sid
  | rawClose id | die session => exact owing_quiet owing rfl rfl rfl rfl

theorem owing_start : Owing (account peerStart.log) peerStart.state :=
  ⟨(fun _ _ none => nomatch none), (fun _ _ none => nomatch none), (fun _ none => nomatch none)⟩

/-- In every run whose steps are dutiful, the first session to join has what a push that reached nobody owed it. -/
theorem no_presence_change_lost (inputs : List PeerInput) (dutiful : peerMachine.Guarded Dutiful peerStart inputs) :
    NothingLost (peerMachine.run peerStart inputs) := by
  let kept (c : PeerConfig) : Prop := Owing (account c.log) c.state
  have last : kept (peerMachine.run peerStart inputs) := peerMachine.run_invariant owing_advance owing_start dutiful
  exact last.nothingLost

/-- The session of the room dies, its broadcast fails, the departure is parked and the next session hears of it. -/
def dutifulRun : List PeerInput :=
  [.join "s" "room" 0, .die (.socketio "s"), .push false "room" "peer" 1 (fun _ => ⟨false, false⟩),
    .answer 0 ⟨false, false⟩ 2, .join "t" "room" 1000, .reach 0 true]

theorem no_presence_change_lost_run :
    .delivered (.socketio "t") "room" .absent ∈ (peerMachine.run peerStart dutifulRun).log ∧
      NothingLost (peerMachine.run peerStart dutifulRun) :=
  ⟨by decide +kernel, no_presence_change_lost dutifulRun (by decide +kernel)⟩

/-- The dead session's object answers that it delivered to no one, and an arrival it was told of is kept nowhere. -/
def deadSessionAnswers : List PeerInput :=
  [.join "s" "room" 0, .die (.socketio "s"), .push true "room" "peer" 1 (fun _ => ⟨false, false⟩),
    .answer 0 ⟨false, true⟩ 2, .join "t" "room" 1000]

/-- The departure is parked, and the first session to join is a raw socket, which is brought nothing. -/
def rawSocketJoins : List PeerInput :=
  [.push false "room" "peer" 1 (fun _ => ⟨false, false⟩), .rawOpen 7 "owner" 2, .rawJoin 7 "room" 1000]

/-- Both runs end with nothing running; nobody heard of the flip, and the first to join within the time did not either. -/
theorem presence_change_lost :
    ¬NothingLost (peerMachine.run peerStart deadSessionAnswers) ∧ ¬NothingLost (peerMachine.run peerStart rawSocketJoins) ∧
      ∀ e ∈ (peerMachine.run peerStart deadSessionAnswers).log ++ (peerMachine.run peerStart rawSocketJoins).log,
        ∀ session room event, e ≠ .told session room event ∧ e ≠ .delivered session room event := by
  have first : (peerMachine.run peerStart deadSessionAnswers).state.pushes = [] ∧
      (peerMachine.run peerStart deadSessionAnswers).state.deliveries = [] ∧
      (account (peerMachine.run peerStart deadSessionAnswers).log).promises ≠ [] := by
    decide +kernel
  have second : (peerMachine.run peerStart rawSocketJoins).state.pushes = [] ∧
      (peerMachine.run peerStart rawSocketJoins).state.deliveries = [] ∧
      (account (peerMachine.run peerStart rawSocketJoins).log).promises ≠ [] := by
    decide +kernel
  have logs : (peerMachine.run peerStart deadSessionAnswers).log ++ (peerMachine.run peerStart rawSocketJoins).log =
      [.joined (.socketio "s") "room" 0, .flipped "room" .present 1 [.socketio "s"], .miscounted "room",
        .joined (.socketio "t") "room" 1000, .flipped "room" .absent 1 [], .joined (.raw 7) "room" 1000] := by
    decide +kernel
  refine ⟨fun kept => first.2.2 (kept first.1 first.2.1), fun kept => second.2.2 (kept second.1 second.2.1), ?_⟩
  rw [logs]
  simp

end MessageRelay.Presence
