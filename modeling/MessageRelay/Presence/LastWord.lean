import MessageRelay.Library.History
import MessageRelay.Presence.Pushes

/-! The last event a session hears of a room and the hub's told-state. They agree in every run in which no flip
overtakes an event of its room that is still on its way. -/

namespace MessageRelay.Presence
open Library

/-- The event a session heard last of a room. -/
def lastHeard (log : List PeerEvent) (session : Session) (room : String) : Option ToldPresence :=
  log.foldl (fun last e =>
    match e with
    | .told s r event | .delivered s r event => if s = session ∧ r = room then some event else last
    | _ => last) none

/-- Who held the room at its last flip. -/
def lastFlip (log : List PeerEvent) (room : String) : Option (List Session) :=
  log.foldl (fun last e =>
    match e with
    | .flipped r _ _ who => if r = room then some who else last
    | _ => last) none

/-- Once every push and delivery has finished, the last word of each live session that held a room at its last flip is
the told-state. -/
def LastWordTold (c : PeerConfig) : Prop :=
  c.state.pushes = [] → c.state.deliveries = [] → ∀ room who, lastFlip c.log room = some who → ∀ session ∈ who,
    c.state.dead session = false → ∀ event, lastHeard c.log session room = some event →
      c.state.store.told room = some event

/-- The condition on one step. A flip finds no event of its room on its way, a live raw socket receives what is written
to it, and a live session receives its broadcast. -/
def Unhurried (c : PeerConfig) : PeerInput → Prop
  | .push present room _ _ reach =>
    (toldTransition (c.state.store.told room) present).1 = true →
      (∀ push ∈ c.state.pushes, push.room ≠ room) ∧ (∀ d ∈ c.state.deliveries, d.room ≠ room) ∧
        ∀ socket ∈ roomSockets c.state room, c.state.dead (.raw socket.id) = true ∨ (reach socket.id).received = true
  | .answer i reach _ =>
    (c.state.pushes[i]?.bind (fun push => push.remaining.head?)).all
      (fun sid => c.state.dead (.socketio sid) || reach.received) = true
  | _ => True

instance (c : PeerConfig) (input : PeerInput) : Decidable (Unhurried c input) :=
  match input with
  | .push .. => inferInstanceAs (Decidable (_ → _))
  | .answer .. => inferInstanceAs (Decidable (_ = true))
  | .join .. | .register .. | .reach .. | .leave .. | .unregister .. | .list .. | .rawOpen .. | .rawJoin ..
  | .rawLeave .. | .rawClose .. | .die .. => .isTrue trivial

/-- What is parked for a room was once told. -/
def PeerStore.Known (store : PeerStore) : Prop :=
  ∀ room, store.told room = none → store.parkedLeft room = none ∧ store.parkedJoined room = none

/-- What is on its way is the told-state, and who held a room at its flip has heard it, will hear it or is dead. -/
structure InStep (c : PeerConfig) : Prop where
  known : c.state.store.Known
  pushes : ∀ push ∈ c.state.pushes, c.state.store.told push.room = some push.event
  deliveries : ∀ d ∈ c.state.deliveries, c.state.store.told d.room = some d.event
  holders : ∀ room who, lastFlip c.log room = some who → ∀ session ∈ who,
    c.state.dead session = true ∨
      (∃ push ∈ c.state.pushes, push.room = room ∧ ∃ sid ∈ push.remaining, session = .socketio sid) ∨
      ∀ event, lastHeard c.log session room = some event → c.state.store.told room = some event

theorem InStep.lastWordTold {c : PeerConfig} (inStep : InStep c) : LastWordTold c := by
  intro noPush _ room who flipped session member live event heard
  obtain dead | ⟨push, running, -⟩ | agrees := inStep.holders room who flipped session member
  · rw [live] at dead
    cases dead
  · rw [noPush] at running
    cases running
  · exact agrees event heard

/-! What a log says after more of it. -/

theorem lastHeard_append (log new : List PeerEvent) (session : Session) (room : String) :
    lastHeard (log ++ new) session room = (lastHeard new session room).or (lastHeard log session room) := by
  refine foldl_append_last (fun e => ?_) log new
  cases e with
  | told s r event | delivered s r event =>
    by_cases own : s = session ∧ r = room
    · exact .inr ⟨event, fun _ => if_pos own⟩
    · exact .inl (fun _ => if_neg own)
  | flipped | miscounted | joined => exact .inl (fun _ => rfl)

theorem lastFlip_append (log new : List PeerEvent) (room : String) :
    lastFlip (log ++ new) room = (lastFlip new room).or (lastFlip log room) := by
  refine foldl_append_last (fun e => ?_) log new
  cases e with
  | flipped r event atMs who =>
    by_cases own : r = room
    · exact .inr ⟨who, fun _ => if_pos own⟩
    · exact .inl (fun _ => if_neg own)
  | told | miscounted | joined | delivered => exact .inl (fun _ => rfl)

/-- What was heard last was told or delivered. -/
theorem mem_of_lastHeard {log : List PeerEvent} {session : Session} {room : String} {event : ToldPresence}
    (heard : lastHeard log session room = some event) :
    .told session room event ∈ log ∨ .delivered session room event ∈ log := by
  induction log using List.reverseRecOn with
  | nil => cases heard
  | append_singleton front e ih =>
    rw [lastHeard_append] at heard
    cases e with
    | told s r w | delivered s r w =>
      by_cases own : s = session ∧ r = room
      · obtain ⟨rfl, rfl⟩ := own
        simp only [lastHeard, List.foldl_cons, List.foldl_nil, and_self, if_true, Option.some_or,
          Option.some.injEq] at heard
        subst heard
        simp
      · simp only [lastHeard, List.foldl_cons, List.foldl_nil, if_neg own, Option.none_or] at heard
        obtain told | delivered := ih heard
        · exact .inl (List.mem_append_left _ told)
        · exact .inr (List.mem_append_left _ delivered)
    | flipped r w t who | miscounted r | joined s r t =>
      simp only [lastHeard, List.foldl_cons, List.foldl_nil, Option.none_or] at heard
      obtain told | delivered := ih heard
      · exact .inl (List.mem_append_left _ told)
      · exact .inr (List.mem_append_left _ delivered)

theorem lastHeard_of_told {log : List PeerEvent} {session : Session} {room : String} {event : ToldPresence}
    (told : .told session room event ∈ log) : lastHeard log session room ≠ none := by
  obtain ⟨front, back, rfl⟩ := List.append_of_mem told
  rw [← List.singleton_append, ← List.append_assoc, lastHeard_append, lastHeard_append]
  cases lastHeard back session room <;> simp [lastHeard]

theorem lastFlip_eq_none {log : List PeerEvent} {room : String}
    (other : ∀ e ∈ log, ∀ event atMs who, e ≠ .flipped room event atMs who) : lastFlip log room = none := by
  induction log using List.reverseRecOn with
  | nil => rfl
  | append_singleton front e ih =>
    rw [lastFlip_append, ih (fun e member => other e (List.mem_append_left _ member)), Option.or_none]
    cases e with
    | flipped r event atMs who =>
      by_cases same : r = room
      · subst same
        exact absurd rfl (other _ (List.mem_append_right _ (List.mem_singleton_self _)) event atMs who)
      · simp [lastFlip, same]
    | _ => rfl

/-- The events of one room's writes. -/
theorem mem_reached {dead : Session → Bool} {session : Session} {room : String} {event : ToldPresence} {reach : Reach}
    {e : PeerEvent} (member : e ∈ reached dead session room event reach) :
    e = .told session room event ∨ e = .miscounted room := by
  unfold reached at member
  split at member
  · exact .inl (List.mem_singleton.mp member)
  · split at member
    · exact .inr (List.mem_singleton.mp member)
    · cases member

theorem reached_of_received {dead : Session → Bool} {session : Session} {room : String} {event : ToldPresence}
    {reach : Reach} (received : reach.received = true) (live : dead session = false) :
    .told session room event ∈ reached dead session room event reach := by
  simp [reached, received, live]

/-! What a join is brought is the told-state. -/

theorem told_of_owes {store : PeerStore} (known : store.Known) {room : String} {nowMs : Nat} {event : ToldPresence}
    (owed : (store.owes room nowMs).1 = some event) : store.told room = some event := by
  unfold PeerStore.owes at owed
  simp only at owed
  split at owed
  · simp only at owed
    split at owed
    · rename_i due
      cases owed
      unfold departureReplayDue at due
      split at due
      · rename_i absent
        exact absent
      · cases due
    · cases owed
  · rename_i parked
    simp only at owed
    cases told : store.told room with
    | none => simp [known room told] at parked
    | some state =>
      rw [told] at owed
      unfold parkedPresenceChoice at owed
      cases state <;> simp only at owed <;> split at owed <;> rename_i choice <;> split at choice <;>
        simp_all [Option.filter_eq_some_iff]

theorem PeerStore.Known.owes {store : PeerStore} (known : store.Known) (room : String) (nowMs : Nat) :
    (store.owes room nowMs).2.Known := by
  unfold PeerStore.owes
  simp only
  split
  · exact known
  · intro other none
    by_cases same : other = room
    · subst same
      simp
    · simpa [same] using known other none

theorem PeerStore.Known.deliver {store : PeerStore} (known : store.Known) (sid : String) (nowMs : Nat)
    (rooms : List String) : (store.deliver sid nowMs rooms).1.Known := by
  induction rooms generalizing store with
  | nil => exact known
  | cons room rest ih =>
    have kept := known.owes room nowMs
    unfold PeerStore.deliver
    split
    · rename_i event store' owed
      rw [owed] at kept
      exact kept
    · rename_i store' owed
      rw [owed] at kept
      exact ih kept

theorem told_of_deliver {store : PeerStore} (known : store.Known) {sid : String} {nowMs : Nat} {rooms : List String}
    {d : Delivery} (pending : (store.deliver sid nowMs rooms).2.2 = some d) : store.told d.room = some d.event := by
  induction rooms generalizing store with
  | nil => cases pending
  | cons room rest ih =>
    have kept := known.owes room nowMs
    have same := store.owes_told room nowMs
    unfold PeerStore.deliver at pending
    split at pending
    · rename_i event store' owed
      cases pending
      exact told_of_owes known (by rw [owed])
    · rename_i store' owed
      rw [owed] at kept same
      rw [← same]
      exact ih kept pending

theorem PeerStore.Known.settle {store : PeerStore} (known : store.Known) {push : Push}
    (told : store.told push.room = some push.event) (nowMs : Nat) : (store.settle push nowMs).Known := by
  intro room none
  rw [PeerStore.settle_told] at none
  have other : room ≠ push.room := by
    rintro rfl
    rw [told] at none
    cases none
  have before := known room none
  unfold PeerStore.settle
  split <;> split <;> simpa [other] using before

/-! The steps. -/

/-- A step that moves the registry, the sockets or the dead and says nothing. -/
theorem InStep.frame {c c' : PeerConfig} (inStep : InStep c) (log : c'.log = c.log)
    (store : c'.state.store = c.state.store) (pushes : c'.state.pushes = c.state.pushes)
    (deliveries : c'.state.deliveries = c.state.deliveries)
    (dead : ∀ session, c.state.dead session = true → c'.state.dead session = true) : InStep c' := by
  refine ⟨store ▸ inStep.known, ?_, ?_, ?_⟩
  · rw [store, pushes]
    exact inStep.pushes
  · rw [store, deliveries]
    exact inStep.deliveries
  · rw [store, pushes, log]
    intro room who flipped session member
    exact (inStep.holders room who flipped session member).imp_left (dead session)

theorem lastHeard_joins {new : List PeerEvent} (joins : ∀ e ∈ new, ∃ s room atMs, e = .joined s room atMs)
    (session : Session) (room : String) : lastHeard new session room = none := by
  cases heard : lastHeard new session room with
  | none => rfl
  | some event =>
    obtain told | delivered := mem_of_lastHeard heard
    · obtain ⟨s, r, t, same⟩ := joins _ told
      cases same
    · obtain ⟨s, r, t, same⟩ := joins _ delivered
      cases same

theorem lastFlip_joins {new : List PeerEvent} (joins : ∀ e ∈ new, ∃ s room atMs, e = .joined s room atMs)
    (room : String) : lastFlip new room = none := by
  refine lastFlip_eq_none (fun e member event atMs who same => ?_)
  obtain ⟨s, r, t, joined⟩ := joins e member
  rw [joined] at same
  cases same

/-- The loop of a delivery brings no session anything but the told-state. -/
theorem InStep.deliver {c : PeerConfig} (inStep : InStep c) (sid : String) (nowMs : Nat) (rooms : List String) :
    InStep ⟨(c.state.deliver sid nowMs rooms).1, c.log ++ (c.state.deliver sid nowMs rooms).2⟩ := by
  have joins : ∀ e ∈ (c.state.deliver sid nowMs rooms).2, ∃ s room atMs, e = .joined s room atMs := by
    intro e member
    obtain ⟨room, same⟩ := c.state.store.deliver_log sid nowMs rooms e member
    exact ⟨_, room, _, same⟩
  refine ⟨inStep.known.deliver sid nowMs rooms, ?_, ?_, ?_⟩
  · intro push running
    show (c.state.store.deliver sid nowMs rooms).1.told push.room = _
    rw [PeerStore.deliver_told]
    exact inStep.pushes push running
  · intro d running
    show (c.state.store.deliver sid nowMs rooms).1.told d.room = _
    rw [PeerStore.deliver_told]
    obtain old | new := List.mem_append.mp running
    · exact inStep.deliveries d old
    · exact told_of_deliver inStep.known (Option.mem_toList.mp new)
  · intro room who flipped session member
    simp only [lastFlip_append, lastFlip_joins joins, Option.none_or] at flipped
    obtain dead | running | agrees := inStep.holders room who flipped session member
    · exact .inl dead
    · exact .inr (.inl running)
    · refine .inr (.inr (fun event heard => ?_))
      show (c.state.store.deliver sid nowMs rooms).1.told room = _
      simp only [lastHeard_append, lastHeard_joins joins, Option.none_or] at heard
      rw [PeerStore.deliver_told]
      exact agrees event heard

/-- A join that logs itself and nothing more. -/
theorem InStep.joined {c : PeerConfig} (inStep : InStep c) (session : Session) (room : String) (atMs : Nat) :
    InStep ⟨c.state, c.log ++ [.joined session room atMs]⟩ := by
  have joins : ∀ e ∈ [PeerEvent.joined session room atMs], ∃ s room atMs, e = .joined s room atMs := by simp
  refine ⟨inStep.known, inStep.pushes, inStep.deliveries, ?_⟩
  intro other who flipped s member
  simp only [lastFlip_append, lastFlip_joins joins, Option.none_or] at flipped
  simp only [lastHeard_append, lastHeard_joins joins, Option.none_or]
  exact inStep.holders other who flipped s member

/-- An event of the told-state is heard. -/
theorem InStep.heard {c : PeerConfig} (inStep : InStep c) {new : List PeerEvent} {room : String} {event : ToldPresence}
    (told : c.state.store.told room = some event)
    (only : ∀ e ∈ new, (∃ s, e = .told s room event ∨ e = .delivered s room event) ∨ e = .miscounted room) :
    InStep ⟨c.state, c.log ++ new⟩ := by
  refine ⟨inStep.known, inStep.pushes, inStep.deliveries, ?_⟩
  intro other who flipped session member
  have quiet : lastFlip new other = none := by
    refine lastFlip_eq_none (fun e inside event atMs who same => ?_)
    obtain ⟨s, said | said⟩ | said := only e inside <;> rw [said] at same <;> cases same
  simp only [lastFlip_append, quiet, Option.none_or] at flipped
  obtain dead | running | agrees := inStep.holders other who flipped session member
  · exact .inl dead
  · exact .inr (.inl running)
  · refine .inr (.inr (fun last heard => ?_))
    rw [lastHeard_append] at heard
    cases newest : lastHeard new session other with
    | none =>
      rw [newest, Option.none_or] at heard
      exact agrees last heard
    | some said =>
      rw [newest, Option.some_or, Option.some.injEq] at heard
      subst heard
      have which : other = room ∧ said = event := by
        obtain inside | inside := mem_of_lastHeard newest <;>
          obtain ⟨s, same | same⟩ | same := only _ inside <;> cases same <;> exact ⟨rfl, rfl⟩
      obtain ⟨rfl, rfl⟩ := which
      exact told

theorem inStep_reachDelivery {c : PeerConfig} (inStep : InStep c) (i : Nat) (received : Bool) :
    InStep (peerMachine.advance c (.reach i received)) := by
  show InStep ⟨(reachDelivery c.state i received).1, c.log ++ (reachDelivery c.state i received).2⟩
  unfold reachDelivery
  cases there : c.state.deliveries[i]? with
  | none => simpa using inStep
  | some d =>
    have told := inStep.deliveries d (List.mem_of_getElem? there)
    have heard : InStep ⟨c.state, c.log ++
        if received && !c.state.dead (.socketio d.sid) then [.delivered (.socketio d.sid) d.room d.event] else []⟩ := by
      refine inStep.heard told (fun e member => ?_)
      split at member
      · exact .inl ⟨_, .inr (List.mem_singleton.mp member)⟩
      · cases member
    have fewer : InStep ⟨{ c.state with deliveries := c.state.deliveries.eraseIdx i }, c.log ++
        if received && !c.state.dead (.socketio d.sid) then [.delivered (.socketio d.sid) d.room d.event] else []⟩ :=
      ⟨heard.known, heard.pushes, fun d member => heard.deliveries d (List.mem_of_mem_eraseIdx member), heard.holders⟩
    have done := fewer.deliver d.sid d.nowMs d.rest
    simpa only [List.append_assoc] using done

/-- A push's next session answers: it has heard the told-state, or it is dead. -/
theorem inStep_answer {c : PeerConfig} (inStep : InStep c) {i : Nat} {reach : Reach} {nowMs : Nat}
    (unhurried : Unhurried c (.answer i reach nowMs)) : InStep (peerMachine.advance c (.answer i reach nowMs)) := by
  show InStep ⟨(answer c.state i reach nowMs).1, c.log ++ (answer c.state i reach nowMs).2⟩
  obtain same | ⟨push, sid, rest, there, left, same⟩ := answer_cases c.state i reach nowMs
  · rw [same]
    simpa using inStep
  · have running := List.mem_of_getElem? there
    have told := inStep.pushes push running
    have heard : InStep ⟨c.state, c.log ++ reached c.state.dead (.socketio sid) push.room push.event reach⟩ :=
      inStep.heard told (fun e member => (mem_reached member).imp_left (fun said => ⟨_, .inl said⟩))
    have head : c.state.dead (.socketio sid) = true ∨ ∀ event,
        lastHeard (c.log ++ reached c.state.dead (.socketio sid) push.room push.event reach) (.socketio sid) push.room =
          some event → c.state.store.told push.room = some event := by
      by_cases dead : c.state.dead (.socketio sid) = true
      · exact .inl dead
      · refine .inr (fun event last => ?_)
        have received : reach.received = true := by
          simpa [Unhurried, there, left, dead] using unhurried
        have said : .told (.socketio sid) push.room push.event ∈
            reached c.state.dead (.socketio sid) push.room push.event reach :=
          reached_of_received received (by simpa using dead)
        obtain ⟨now, newest⟩ := Option.ne_none_iff_exists'.mp (lastHeard_of_told said)
        rw [lastHeard_append, newest, Option.some_or, Option.some.injEq] at last
        subst last
        rw [told]
        obtain inside | inside := mem_of_lastHeard newest <;> obtain this | this := mem_reached inside <;> cases this
        rfl
    -- The push with its head taken off, where anything is left of it.
    let push' : Push := { push with remaining := rest, delivered := push.delivered + if reach.ok then 1 else 0 }
    have follow (pushes : List Push) (store : PeerStore) (tells : store.told = c.state.store.told)
        (known : store.Known) (from' : ∀ q ∈ pushes, q ∈ c.state.pushes ∨ q = push')
        (stays : ∀ q ∈ c.state.pushes, q ∈ pushes ∨ q = push) (next : rest ≠ [] → push' ∈ pushes) :
        InStep ⟨{ c.state with store, pushes },
          c.log ++ reached c.state.dead (.socketio sid) push.room push.event reach⟩ := by
      refine ⟨known, ?_, ?_, ?_⟩
      · intro q member
        show store.told q.room = some q.event
        rw [tells]
        obtain old | rfl := from' q member
        · exact inStep.pushes q old
        · exact told
      · intro d member
        show store.told d.room = some d.event
        rw [tells]
        exact inStep.deliveries d member
      · intro room who flipped session member
        show _ ∨ _ ∨ ∀ event, _ → store.told room = some event
        rw [tells]
        obtain dead | ⟨q, under, rfl, sid', inside, rfl⟩ | agrees := heard.holders room who flipped session member
        · exact .inl dead
        · obtain stayed | rfl := stays q under
          · exact .inr (.inl ⟨q, stayed, rfl, sid', inside, rfl⟩)
          · rw [left, List.mem_cons] at inside
            obtain rfl | later := inside
            · exact head.imp_right .inr
            · exact .inr (.inl ⟨push', next (List.ne_nil_of_mem later), rfl, sid', later, rfl⟩)
        · exact .inr (.inr agrees)
    rw [same]
    cases rest with
    | nil =>
      have told' : c.state.store.told push'.room = some push'.event := told
      have known : (c.state.store.settle push' nowMs).Known := PeerStore.Known.settle inStep.known told' nowMs
      refine follow _ _ (PeerStore.settle_told _ push' _) known ?_ ?_ (fun none => absurd rfl none)
      · exact fun q member => .inl (List.mem_of_mem_eraseIdx member)
      · exact fun q member => mem_eraseIdx_or_eq there member
    | cons next later =>
      refine follow _ _ rfl inStep.known ?_ ?_ (fun _ => ?_)
      · exact fun q member => List.mem_or_eq_of_mem_set member
      · exact fun q member => mem_set_or_eq there _ member
      · exact List.mem_set (List.getElem?_eq_some_iff.mp there).1 _

/-! A flip: what it logs, and what it leaves. -/

/-- The flip and the writes to the room's raw sockets. -/
def flipLog (w : PeerWorld) (room : String) (event : ToldPresence) (nowMs : Nat) (reach : Nat → Reach) :
    List PeerEvent :=
  .flipped room event nowMs (holders w room nowMs) ::
    (roomSockets w room).flatMap (fun s => reached w.dead (.raw s.id) room event (reach s.id))

section FlipLog
variable {w : PeerWorld} {room : String} {event : ToldPresence} {nowMs : Nat} {reach : Nat → Reach}

theorem mem_writes {e : PeerEvent}
    (member : e ∈ (roomSockets w room).flatMap (fun s => reached w.dead (.raw s.id) room event (reach s.id))) :
    (∃ s, e = .told s room event) ∨ e = .miscounted room := by
  obtain ⟨socket, -, inside⟩ := List.mem_flatMap.mp member
  exact (mem_reached inside).imp_left (fun same => ⟨_, same⟩)

theorem lastHeard_flipLog {session : Session} {other : String} {heard : ToldPresence}
    (newest : lastHeard (flipLog w room event nowMs reach) session other = some heard) : other = room ∧ heard = event := by
  have told {e : PeerEvent} (inside : e ∈ flipLog w room event nowMs reach)
      (spoken : e = .told session other heard ∨ e = .delivered session other heard) : other = room ∧ heard = event := by
    obtain first | later := List.mem_cons.mp inside
    · obtain same | same := spoken <;> rw [same] at first <;> cases first
    · obtain ⟨s, this⟩ | this := mem_writes later <;> obtain same | same := spoken <;> rw [same] at this <;> cases this
      exact ⟨rfl, rfl⟩
  obtain inside | inside := mem_of_lastHeard newest
  · exact told inside (.inl rfl)
  · exact told inside (.inr rfl)

theorem lastFlip_flipLog_self :
    lastFlip (flipLog w room event nowMs reach) room = some (holders w room nowMs) := by
  have quiet : lastFlip ((roomSockets w room).flatMap
      (fun s => reached w.dead (.raw s.id) room event (reach s.id))) room = none := by
    refine lastFlip_eq_none (fun e inside _ _ _ same => ?_)
    obtain ⟨s, this⟩ | this := mem_writes inside <;> rw [this] at same <;> cases same
  rw [flipLog, ← List.singleton_append, lastFlip_append, quiet, Option.none_or]
  simp [lastFlip]

theorem lastFlip_flipLog_other {other : String} (apart : other ≠ room) :
    lastFlip (flipLog w room event nowMs reach) other = none := by
  refine lastFlip_eq_none (fun e inside _ _ _ same => ?_)
  obtain first | later := List.mem_cons.mp inside
  · rw [first] at same
    cases same
    exact apart rfl
  · obtain ⟨s, this⟩ | this := mem_writes later <;> rw [this] at same <;> cases same

end FlipLog

/-- Who held the flipped room has heard of it, is dead, or is on the list of a push. -/
theorem InStep.flipped {c : PeerConfig} (inStep : InStep c) {room : String} {event : ToldPresence} {nowMs : Nat}
    {reach : Nat → Reach} (noDelivery : ∀ d ∈ c.state.deliveries, d.room ≠ room)
    (noPush : ∀ push ∈ c.state.pushes, push.room ≠ room)
    (raws : ∀ socket ∈ roomSockets c.state room,
      c.state.dead (.raw socket.id) = true ∨ (reach socket.id).received = true)
    {store : PeerStore} (tells : store.told = Function.update c.state.store.told room (some event)) (known : store.Known)
    {pushes : List Push} (older : ∀ q ∈ c.state.pushes, q ∈ pushes)
    (from' : ∀ q ∈ pushes, q ∈ c.state.pushes ∨ (q.room = room ∧ q.event = event))
    (next : ∀ entry ∈ (listLive nowMs c.state.registry).rows,
      ∃ q ∈ pushes, q.room = room ∧ ∃ sid ∈ q.remaining, entry.sid = sid) (registry : Registry) :
    InStep ⟨{ c.state with registry, store, pushes }, c.log ++ flipLog c.state room event nowMs reach⟩ := by
  refine ⟨known, ?_, ?_, ?_⟩
  · intro q member
    show store.told q.room = _
    rw [tells]
    obtain old | ⟨here, same⟩ := from' q member
    · rw [Function.update_of_ne (noPush q old)]
      exact inStep.pushes q old
    · rw [here, Function.update_self, same]
  · intro d member
    show store.told d.room = _
    rw [tells, Function.update_of_ne (noDelivery d member)]
    exact inStep.deliveries d member
  · intro other who flipped session member
    show _ ∨ _ ∨ ∀ w, _ → store.told other = some w
    rw [lastFlip_append] at flipped
    rw [tells, lastHeard_append]
    by_cases same : other = room
    · subst same
      rw [lastFlip_flipLog_self, Option.some_or, Option.some.injEq] at flipped
      subst flipped
      rw [Function.update_self]
      obtain raw | socketio := List.mem_append.mp member
      · obtain ⟨socket, inside, rfl⟩ := List.mem_map.mp raw
        by_cases dead : c.state.dead (.raw socket.id) = true
        · exact .inl dead
        · refine .inr (.inr (fun w heard => ?_))
          have told : .told (.raw socket.id) other event ∈ flipLog c.state other event nowMs reach := by
            refine List.mem_cons_of_mem _ (List.mem_flatMap.mpr ⟨socket, inside, ?_⟩)
            exact reached_of_received ((raws socket inside).resolve_left dead) (by simpa using dead)
          obtain ⟨now, newest⟩ := Option.ne_none_iff_exists'.mp (lastHeard_of_told told)
          rw [newest, Option.some_or, Option.some.injEq] at heard
          rw [← heard, (lastHeard_flipLog newest).2]
      · obtain ⟨entry, inside, rfl⟩ := List.mem_map.mp socketio
        obtain ⟨q, running, here, sid, listed, named⟩ := next entry (List.mem_of_mem_filter inside)
        exact .inr (.inl ⟨q, running, here, sid, listed, by rw [named]⟩)
    · rw [lastFlip_flipLog_other same, Option.none_or] at flipped
      rw [Function.update_of_ne same]
      have silent : lastHeard (flipLog c.state room event nowMs reach) session other = none := by
        cases newest : lastHeard (flipLog c.state room event nowMs reach) session other with
        | none => rfl
        | some w => exact absurd (lastHeard_flipLog newest).1 same
      rw [silent, Option.none_or]
      obtain dead | ⟨q, running, there, listed⟩ | agrees := inStep.holders other who flipped session member
      · exact .inl dead
      · exact .inr (.inl ⟨q, older q running, there, listed⟩)
      · exact .inr (.inr agrees)

theorem PeerStore.Known.flip {store : PeerStore} (known : store.Known) (room : String) (event : ToldPresence) :
    ({ store with told := Function.update store.told room (some event) } : PeerStore).Known := by
  intro other none
  by_cases same : other = room
  · subst same
    simp at none
  · exact known other (by simpa [same] using none)

/-- A flip that finds nothing of its room on its way. -/
theorem inStep_handlePeer {c : PeerConfig} (inStep : InStep c) {present : Bool} {room who : String} {nowMs : Nat}
    {reach : Nat → Reach} (unhurried : Unhurried c (.push present room who nowMs reach)) :
    InStep (peerMachine.advance c (.push present room who nowMs reach)) := by
  show InStep ⟨(handlePeer c.state present room who nowMs reach).1,
    c.log ++ (handlePeer c.state present room who nowMs reach).2⟩
  unfold handlePeer
  cases flips : toldTransition (c.state.store.told room) present with
  | mk emitIt event =>
  cases emitIt with
  | false => simpa using inStep
  | true =>
    obtain ⟨noPush, noDelivery, raws⟩ := unhurried (by rw [flips])
    simp only [Bool.not_true, Bool.false_eq_true, if_false]
    have known := inStep.known.flip room event
    cases listed : (listLive nowMs c.state.registry).rows.map SocketIoRegistryEntry.sid with
    | nil =>
      have empty := List.map_eq_nil_iff.mp listed
      refine inStep.flipped noDelivery noPush raws (PeerStore.settle_told _ _ _) (known.settle (by simp) nowMs)
        (fun q member => member) (fun q member => .inl member) (fun entry member => ?_) _
      rw [empty] at member
      cases member
    | cons first rest =>
      -- The sessions the push has still to broadcast to are on its list.
      refine inStep.flipped noDelivery noPush raws rfl known (fun q member => List.mem_append_left _ member)
        (fun q member => ?_) (fun entry member => ?_) _
      · obtain old | new := List.mem_append.mp member
        · exact .inl old
        · rw [List.mem_singleton.mp new]
          exact .inr ⟨rfl, rfl⟩
      · refine ⟨_, List.mem_append_right _ (List.mem_singleton_self _), rfl, entry.sid, ?_, rfl⟩
        show entry.sid ∈ first :: rest
        rw [← listed]
        exact List.mem_map_of_mem member

theorem inStep_join {c : PeerConfig} (inStep : InStep c) (sid room : String) (nowMs : Nat) :
    InStep (peerMachine.advance c (.join sid room nowMs)) := by
  show InStep ⟨(socketioJoin c.state sid room nowMs).1, c.log ++ (socketioJoin c.state sid room nowMs).2⟩
  have moved : InStep ⟨{ c.state with registry := joinRoom c.state.registry allTake sid room nowMs }, c.log⟩ :=
    inStep.frame rfl rfl rfl rfl (fun _ dead => dead)
  unfold socketioJoin
  split
  · simpa using inStep
  · simp only
    split
    · exact moved.joined _ _ _
    · exact moved.deliver sid nowMs [room]

theorem inStep_register {c : PeerConfig} (inStep : InStep c) (sid : String) (nowMs : Nat) :
    InStep (peerMachine.advance c (.register sid nowMs)) := by
  show InStep ⟨(socketioRegister c.state sid nowMs).1, c.log ++ (socketioRegister c.state sid nowMs).2⟩
  have moved : InStep ⟨{ c.state with registry := handleSocketioRegister c.state.registry allTake sid nowMs }, c.log⟩ :=
    inStep.frame rfl rfl rfl rfl (fun _ dead => dead)
  unfold socketioRegister
  split
  · simpa using inStep
  · exact moved.deliver sid nowMs _

theorem inStep_rawJoin {c : PeerConfig} (inStep : InStep c) (id : Nat) (room : String) (nowMs : Nat) :
    InStep (peerMachine.advance c (.rawJoin id room nowMs)) := by
  have moved : InStep ⟨(peerStep c.state (.rawJoin id room nowMs)).1, c.log⟩ :=
    inStep.frame rfl rfl rfl rfl (fun _ dead => dead)
  show InStep ⟨(peerStep c.state (.rawJoin id room nowMs)).1,
    c.log ++ if (c.state.sockets.find? id).isSome then [.joined (.raw id) room nowMs] else []⟩
  split
  · exact moved.joined _ _ _
  · simpa using moved

/-- A step that logs nothing and leaves the store and the tasks alone. -/
theorem inStep_quiet {c : PeerConfig} (inStep : InStep c) {input : PeerInput} (log : (peerStep c.state input).2 = [])
    (store : (peerStep c.state input).1.store = c.state.store)
    (pushes : (peerStep c.state input).1.pushes = c.state.pushes)
    (deliveries : (peerStep c.state input).1.deliveries = c.state.deliveries)
    (dead : ∀ session, c.state.dead session = true → (peerStep c.state input).1.dead session = true) :
    InStep (peerMachine.advance c input) := by
  have quiet : (peerMachine.advance c input).log = c.log := by
    show c.log ++ (peerStep c.state input).2 = c.log
    rw [log, List.append_nil]
  exact inStep.frame quiet store pushes deliveries dead

theorem kill_dead (w : PeerWorld) (session other : Session) (dead : w.dead other = true) :
    (w.kill session).dead other = true := by
  unfold PeerWorld.kill
  by_cases same : other = session
  · simp [same]
  · simpa [same] using dead

/-- One step keeps what is on its way in step with the told-state. -/
theorem inStep_advance (c : PeerConfig) (input : PeerInput) (inStep : InStep c) (unhurried : Unhurried c input) :
    InStep (peerMachine.advance c input) := by
  cases input with
  | push present room who nowMs reach => exact inStep_handlePeer inStep unhurried
  | answer i reach nowMs => exact inStep_answer inStep unhurried
  | join sid room nowMs => exact inStep_join inStep sid room nowMs
  | register sid nowMs => exact inStep_register inStep sid nowMs
  | reach i received => exact inStep_reachDelivery inStep i received
  | rawJoin id room nowMs => exact inStep_rawJoin inStep id room nowMs
  | leave sid room nowMs | list nowMs | rawOpen id identityKey nowMs | rawLeave id room =>
    exact inStep_quiet inStep rfl rfl rfl rfl (fun _ dead => dead)
  | unregister sid | rawClose id | die session => exact inStep_quiet inStep rfl rfl rfl rfl (kill_dead _ _)

theorem inStep_start : InStep peerStart :=
  ⟨fun _ _ => ⟨rfl, rfl⟩, (fun _ none => nomatch none), (fun _ none => nomatch none), (fun _ _ none => nomatch none)⟩

/-- In every run whose steps are unhurried, each session's last word is the told-state in every state reached. -/
theorem last_word_is_told (inputs : List PeerInput) (unhurried : peerMachine.Guarded Unhurried peerStart inputs) :
    LastWordTold (peerMachine.run peerStart inputs) :=
  (peerMachine.run_invariant inStep_advance inStep_start unhurried).lastWordTold

def reaches : Reach := ⟨true, true⟩

/-- Two sessions; a departure reaches the first; the arrival that follows reaches both. -/
def unhurriedRun : List PeerInput :=
  [.join "s" "room" 0, .join "t" "room" 0, .push false "room" "peer" 1 (fun _ => reaches), .answer 0 reaches 2,
    .answer 0 reaches 3, .push true "room" "peer" 4 (fun _ => reaches), .answer 0 reaches 5, .answer 0 reaches 6]

theorem last_word_is_told_run :
    lastHeard (peerMachine.run peerStart unhurriedRun).log (.socketio "t") "room" = some .present ∧
      LastWordTold (peerMachine.run peerStart unhurriedRun) :=
  ⟨by decide +kernel, last_word_is_told unhurriedRun (by decide +kernel)⟩

/-- The second session is still to hear of the departure when the arrival overtakes it. -/
def overtakenRun : List PeerInput :=
  [.join "s" "room" 0, .join "t" "room" 0, .push false "room" "peer" 1 (fun _ => reaches), .answer 0 reaches 2,
    .push true "room" "peer" 3 (fun _ => reaches), .answer 1 reaches 4, .answer 1 reaches 5, .answer 0 reaches 6]

/-- All has finished, the told-state is present, and the last word of a live session is a departure. -/
theorem departure_overtaken : ¬LastWordTold (peerMachine.run peerStart overtakenRun) := by
  have finished : (peerMachine.run peerStart overtakenRun).state.pushes = [] ∧
      (peerMachine.run peerStart overtakenRun).state.deliveries = [] ∧
      lastFlip (peerMachine.run peerStart overtakenRun).log "room" = some [.socketio "s", .socketio "t"] ∧
      (peerMachine.run peerStart overtakenRun).state.dead (.socketio "t") = false ∧
      lastHeard (peerMachine.run peerStart overtakenRun).log (.socketio "t") "room" = some .absent ∧
      (peerMachine.run peerStart overtakenRun).state.store.told "room" = some .present := by
    decide +kernel
  intro agrees
  obtain ⟨pushes, deliveries, flipped, live, heard, told⟩ := finished
  have same := agrees pushes deliveries "room" _ flipped (.socketio "t") (by simp) live .absent heard
  rw [told] at same
  cases same

end MessageRelay.Presence
