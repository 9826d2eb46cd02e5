import MessageRelay.Presence.QuietWindow

/-! What a hub answers of its own rooms: `present`, `false` or nothing. A room that is not held answers `false` after a
confirmed departure, and where nothing was heard of it for a whole window. The rooms are those of the departures; beside
them stand the times a room was last seen, the deadlines its owner published, and the writes of a fan-out. -/

namespace MessageRelay.Presence
open Library

def presenceIdleWindowMs : Nat := socketioSubLeaseMs

def presenceAnswer (occupied : Bool) (pending : Option PendingPeerLeft) (confirmedGone : Option ToldPresence)
    (lastSeenMs : Option Nat) (nowMs : Nat) : Option Bool :=
  if occupied then some true
  else if pending.any (fun p => nowMs ≤ Lane.saturatingAdd p.dueAtMs peerLeftDebounceMs) then none
  else
    match confirmedGone with
    | some .absent => some false
    | _ =>
      if pending.isNone && lastSeenMs.any (fun t => Lane.saturatingAdd t presenceIdleWindowMs ≤ nowMs) then some false
      else none

/-- A write of `lastseen:`. That of a lapse never takes a later one back. -/
inductive Stamp where
  | touched (room : String) (ms : Nat)
  | atLeast (room : String) (ms : Nat)
  deriving DecidableEq, Repr

def stampSeen (seen : String → Option Nat) : Stamp → String → Option Nat
  | .touched room ms => Function.update seen room (some ms)
  | .atLeast room ms =>
    if (seen room).any (fun held => ms ≤ held) then seen else Function.update seen room (some ms)

/-- A lapsed session was known alive until its last renewal. -/
def lastRenewalMs (entry : SocketIoRegistryEntry) : Nat :=
  max (entry.expiresAtMs.getD 0 - socketioSubLeaseMs) entry.registeredAtMs

/-- The stamps of a list. A room of several lapsed sessions keeps the latest of theirs. -/
def lapsedStamps (w : RoomWorld) (nowMs : Nat) : List Stamp :=
  (listLapsed nowMs w.registry).flatMap (fun entry =>
    ((closeWalk entry.joinedRooms entry.leftRooms).filter (fun room => (roomIdentity room).isSome &&
      !(rawHold w.sockets none room || rowsHold (listLive nowMs w.registry).rows none room))).map
        (fun room => .atLeast room (lastRenewalMs entry)))

def checkStamps (w : RoomWorld) (nowMs : Nat) (skipWs : Option Nat) (room : String) : List Stamp :=
  if rawHold w.sockets skipWs room then [] else lapsedStamps w nowMs

/-- A close stamps each room it walks before it looks whether another holds it. -/
def departStamps (nowMs clock : Nat) (skipWs : Option Nat) (skipSid : Option String) (leaver : String) :
    RoomWorld × List RoomEvent → List String → List Stamp
  | _, [] => []
  | before, room :: rest =>
    .touched room clock :: (checkStamps before.1 nowMs skipWs room ++
      departStamps nowMs clock skipWs skipSid leaver (departRoom nowMs skipWs skipSid leaver before room) rest)

def stampsOf (owner : Owner) (w : RoomWorld) (clock : Nat) : RoomInput → List Stamp
  | .rawJoin _ room | .join _ room _ => if validateRoomOwned owner room then [.touched room clock] else []
  | .rawClose id nowMs =>
    match w.sockets.find? id with
    | none => []
    | some s =>
      let latch (a : SocketAttachment) : SocketAttachment := { a with joinedRooms := [], leftRooms := [] }
      let latched := w.sockets.modify id (RawSocket.change latch) (RawSocket.change_id latch)
      departStamps nowMs clock (some id) none s.attachment.identityKey ({ w with sockets := latched }, [])
        (closeWalk s.attachment.joinedRooms s.attachment.leftRooms)
  | .unregister sid nowMs =>
    match w.registry.find? sid with
    | none => []
    | some entry =>
      let walk := closeWalk entry.joinedRooms entry.leftRooms
      match walk.head?.bind roomIdentity with
      | none => []
      | some leaver =>
        departStamps nowMs clock none (some sid) leaver
          ({ w with registry := w.registry.keep (fun e => e.sid ≠ sid) }, []) walk
  | .list nowMs => lapsedStamps w nowMs
  | .turn nowMs =>
    match w.alarmRun with
    | some (row :: rest) => checkStamps (w.deleted row rest) nowMs none row.room
    | _ => []
  | _ => []

/-- The room a join stands for. -/
def joinOf (owner : Owner) : RoomInput → Option String
  | .rawJoin _ room | .join _ room _ => if validateRoomOwned owner room then some room else none
  | _ => none

structure PresenceWorld where
  rooms : RoomWorld
  lastSeen : String → Option Nat
  rejoinDeadline : String → Option Nat

/-- What happens to a hub. `touch` is a push into a room or a send of its owner's, `writeBack` the end of a fan-out. -/
inductive PresenceInput where
  | room (input : RoomInput) (clock : Nat)
  | touch (room : String) (clock : Nat)
  | writeBack (turns : String → Turn) (entry : SocketIoRegistryEntry)
  | deadline (room : String) (deadlineMs : Nat)
  | read (room : String) (nowMs answeredMs : Nat)

/-- An answer, with those who held the room and the departure that was pending when it was given. -/
structure Reading where
  room : String
  answeredMs : Nat
  present : Option Bool
  lastSeenMs : Option Nat
  rejoinDeadlineMs : Option Nat
  pending : Option PendingPeerLeft
  holders : List Session
  deriving DecidableEq, Repr

inductive PresenceEvent where
  | joined (room : String)
  | stamped (stamp : Stamp)
  | room (event : RoomEvent)
  | answered (reading : Reading)
  deriving DecidableEq, Repr

/-- What a read answers. The stamps and the departures of the list it begins with are written by then. -/
def readingOf (w : PresenceWorld) (room : String) (nowMs answeredMs : Nat) : Reading :=
  let checked := roomStillOccupied w.rooms nowMs none none room
  let pending := if checked.1 then none else (checked.2.1.pending.find? room).map PendingRow.entry
  let confirmedGone := if checked.1 then none else checked.2.1.confirmedGone room
  let lastSeenMs := (checkStamps w.rooms nowMs none room).foldl stampSeen w.lastSeen room
  { room, answeredMs, pending, lastSeenMs
    present := presenceAnswer checked.1 pending confirmedGone lastSeenMs answeredMs
    rejoinDeadlineMs := w.rejoinDeadline room
    holders := roomHolders w.rooms room nowMs }

def handlePresence (w : PresenceWorld) (room : String) (nowMs answeredMs : Nat) : PresenceWorld × List PresenceEvent :=
  if room = "" then (w, [])
  else
    let (_, rooms, events) := roomStillOccupied w.rooms nowMs none none room
    let stamps := checkStamps w.rooms nowMs none room
    ({ w with rooms, lastSeen := stamps.foldl stampSeen w.lastSeen },
      stamps.map .stamped ++ events.map .room ++ [.answered (readingOf w room nowMs answeredMs)])

def presenceStep (owner : Owner) (w : PresenceWorld) : PresenceInput → PresenceWorld × List PresenceEvent
  | .room input clock =>
    let stamps := stampsOf owner w.rooms clock input
    let moved := roomStep owner w.rooms input
    ({ w with rooms := moved.1, lastSeen := stamps.foldl stampSeen w.lastSeen },
      (joinOf owner input).toList.map .joined ++ stamps.map .stamped ++ moved.2.map .room)
  | .touch room clock =>
    ({ w with lastSeen := stampSeen w.lastSeen (.touched room clock) }, [.stamped (.touched room clock)])
  | .writeBack turns entry =>
    ({ w with rooms := { w.rooms with registry := Presence.writeBack turns w.rooms.registry entry } }, [])
  | .deadline room deadlineMs =>
    ({ w with rejoinDeadline := Function.update w.rejoinDeadline room (some deadlineMs) }, [])
  | .read room nowMs answeredMs => handlePresence w room nowMs answeredMs

def presenceMachine (owner : Owner) : Machine PresenceWorld PresenceInput PresenceEvent := ⟨presenceStep owner⟩

abbrev PresenceConfig := Config PresenceWorld PresenceEvent

def presenceStart : PresenceConfig := ⟨⟨roomStart.state, fun _ => none, fun _ => none⟩, []⟩

/-- The last word on each room: that it was joined, or that its departure was confirmed. -/
def heard (word : String → Option ToldPresence) : PresenceEvent → String → Option ToldPresence
  | .joined room => Function.update word room (some .present)
  | .room (.confirmed room _ _) => Function.update word room (some .absent)
  | _ => word

def lastWord (log : List PresenceEvent) : String → Option ToldPresence := log.foldl heard (fun _ => none)

def seenAt (seen : String → Option Nat) : PresenceEvent → String → Option Nat
  | .stamped stamp => stampSeen seen stamp
  | _ => seen

/-- When each room was last joined, written into, closed or known held. -/
def lastSeenOf (log : List PresenceEvent) : String → Option Nat := log.foldl seenAt (fun _ => none)

/-- A departure of the room is pending, and its check is not a whole window late. -/
def Reading.Undecided (r : Reading) : Prop :=
  ∃ p ∈ r.pending, r.answeredMs ≤ Lane.saturatingAdd p.dueAtMs peerLeftDebounceMs

/-- Nothing is pending and nothing was heard of the room for a window. -/
def Reading.Idle (before : List PresenceEvent) (r : Reading) : Prop :=
  r.pending = none ∧ ∃ t ∈ lastSeenOf before r.room, Lane.saturatingAdd t presenceIdleWindowMs ≤ r.answeredMs

/-- An answer is `true` of the rooms that are held, and `false` of those whose departure was confirmed after they were
joined last, or that are idle. -/
def Told (before : List PresenceEvent) : PresenceEvent → Prop
  | .answered r =>
    (r.present = some true ↔ r.holders ≠ []) ∧
      (r.present = some false ↔
        r.holders = [] ∧ ¬ r.Undecided ∧ (lastWord before r.room = some .absent ∨ r.Idle before))
  | _ => True

/-! What a request other than the alarm's turn makes of the rooms confirms nothing. -/

/-- What became of the rooms so far. -/
structure Unconfirmed (w : RoomWorld) (r : RoomWorld × List RoomEvent) : Prop where
  gone : r.1.confirmedGone = w.confirmedGone
  silent : ∀ event ∈ r.2, event.isEmptied = true

theorem Unconfirmed.start {w w' : RoomWorld} (same : w'.confirmedGone = w.confirmedGone) : Unconfirmed w (w', []) :=
  ⟨same, by simp⟩

theorem Unconfirmed.list {w : RoomWorld} {r : RoomWorld × List RoomEvent} (before : Unconfirmed w r) (nowMs : Nat) :
    Unconfirmed w ((listSubscribers r.1 nowMs).1, r.2 ++ (listSubscribers r.1 nowMs).2) where
  gone := before.gone
  silent := by
    intro event member
    rcases List.mem_append.mp member with old | new
    · exact before.silent event old
    · obtain ⟨room, -, rfl⟩ := List.mem_map.mp new
      rfl

theorem Unconfirmed.check {w : RoomWorld} {r : RoomWorld × List RoomEvent} (before : Unconfirmed w r) (nowMs : Nat)
    (skipWs : Option Nat) (skipSid : Option String) (room : String) :
    Unconfirmed w ((roomStillOccupied r.1 nowMs skipWs skipSid room).2.1,
      r.2 ++ (roomStillOccupied r.1 nowMs skipWs skipSid room).2.2) := by
  unfold roomStillOccupied
  split
  · simpa using before
  · exact before.list nowMs

theorem Unconfirmed.depart {w : RoomWorld} {r : RoomWorld × List RoomEvent} (before : Unconfirmed w r) (nowMs : Nat)
    (skipWs : Option Nat) (skipSid : Option String) (leaver room : String) :
    Unconfirmed w (departRoom nowMs skipWs skipSid leaver r room) := by
  have checked := before.check nowMs skipWs skipSid room
  unfold departRoom
  simp only
  split
  · exact checked
  · refine ⟨checked.gone, fun event member => ?_⟩
    rcases List.mem_append.mp member with old | new
    · exact checked.silent event old
    · rw [List.mem_singleton.mp new]
      rfl

theorem Unconfirmed.departRooms {w : RoomWorld} {r : RoomWorld × List RoomEvent} (before : Unconfirmed w r)
    (nowMs : Nat) (skipWs : Option Nat) (skipSid : Option String) (leaver : String) (rooms : List String) :
    Unconfirmed w (rooms.foldl (departRoom nowMs skipWs skipSid leaver) r) := by
  induction rooms generalizing r with
  | nil => exact before
  | cons room rest ih => exact ih (before.depart nowMs skipWs skipSid leaver room)

theorem unconfirmed_teardown (w : RoomWorld) (id nowMs : Nat) : Unconfirmed w (teardownDepartedSocket w id nowMs) := by
  unfold teardownDepartedSocket
  split
  · exact .start rfl
  · apply Unconfirmed.departRooms
    exact .start rfl

theorem unconfirmed_unregister (w : RoomWorld) (sid : String) (nowMs : Nat) :
    Unconfirmed w (unregisterSession w sid nowMs) := by
  unfold unregisterSession
  simp only
  split
  · exact .start rfl
  · split
    · exact .start rfl
    · split
      · apply Unconfirmed.departRooms
        exact .start rfl
      · refine ⟨rfl, fun event member => ?_⟩
        obtain ⟨room, -, rfl⟩ := List.mem_map.mp member
        rfl

theorem unconfirmed_check (w : RoomWorld) (nowMs : Nat) (room : String) :
    Unconfirmed w (roomStillOccupied w nowMs none none room).2 := by
  have checked := (@Unconfirmed.start w w rfl).check nowMs none none room
  rwa [List.nil_append] at checked

/-! The marker is the last word, and the stamps are what was seen last. -/

theorem foldl_heard_rooms {events : List RoomEvent} (silent : ∀ event ∈ events, event.isEmptied = true)
    (word : String → Option ToldPresence) : (events.map PresenceEvent.room).foldl heard word = word := by
  induction events with
  | nil => rfl
  | cons event rest ih =>
    have emptied := silent event List.mem_cons_self
    cases event with
    | emptied room ms => exact ih (fun e member => silent e (List.mem_cons_of_mem _ member))
    | confirmed => cases emptied

@[simp] theorem foldl_heard_stamps (stamps : List Stamp) (word : String → Option ToldPresence) :
    (stamps.map PresenceEvent.stamped).foldl heard word = word := by
  induction stamps with
  | nil => rfl
  | cons stamp rest ih => exact ih

@[simp] theorem foldl_seenAt_stamps (stamps : List Stamp) (seen : String → Option Nat) :
    (stamps.map PresenceEvent.stamped).foldl seenAt seen = stamps.foldl stampSeen seen := by
  rw [List.foldl_map]
  rfl

@[simp] theorem foldl_seenAt_rooms (events : List RoomEvent) (seen : String → Option Nat) :
    (events.map PresenceEvent.room).foldl seenAt seen = seen := by
  induction events with
  | nil => rfl
  | cons event rest ih => exact ih

/-- One turn of the alarm confirms the room it comes to or nothing. -/
theorem heard_turn (w : RoomWorld) (nowMs : Nat) :
    (((alarmTurn w nowMs).2.map PresenceEvent.room).foldl heard w.confirmedGone) = (alarmTurn w nowMs).1.confirmedGone := by
  cases run : w.alarmRun with
  | none => simp [alarmTurn, run]
  | some rows =>
    cases rows with
    | nil => simp [alarmTurn, run]
    | cons row rest =>
      have checked := unconfirmed_check (w.deleted row rest) nowMs row.room
      cases occupied : (roomStillOccupied (w.deleted row rest) nowMs none none row.room).1 with
      | true =>
        rw [alarmTurn_occupied run occupied, foldl_heard_rooms checked.silent]
        exact checked.gone.symm
      | false =>
        rw [(check_of_not_occupied occupied).1] at checked
        rw [alarmTurn_empty run occupied, List.map_append, List.foldl_append, foldl_heard_rooms checked.silent]
        rfl

theorem heard_step (owner : Owner) (w : RoomWorld) (input : RoomInput) :
    ((roomStep owner w input).2.map PresenceEvent.room).foldl heard
        (((joinOf owner input).toList.map PresenceEvent.joined).foldl heard w.confirmedGone) =
      (roomStep owner w input).1.confirmedGone := by
  have idle {r : RoomWorld × List RoomEvent} (unconfirmed : Unconfirmed w r) :
      (r.2.map PresenceEvent.room).foldl heard w.confirmedGone = r.1.confirmedGone :=
    (foldl_heard_rooms unconfirmed.silent _).trans unconfirmed.gone.symm
  cases input with
  | rawJoin id room =>
    simp only [roomStep, joinOf]
    split <;> rfl
  | join sid room nowMs =>
    simp only [roomStep, joinOf]
    split <;> rfl
  | rawClose id nowMs => exact idle (unconfirmed_teardown w id nowMs)
  | unregister sid nowMs => exact idle (unconfirmed_unregister w sid nowMs)
  | list nowMs =>
    have listed := (@Unconfirmed.start w w rfl).list nowMs
    rw [List.nil_append] at listed
    exact idle listed
  | turn nowMs => exact heard_turn w nowMs
  | ring nowMs =>
    simp only [roomStep, joinOf]
    split <;> rfl
  | done =>
    simp only [roomStep, joinOf]
    split <;> rfl
  | rawOpen | rawLeave | register | leave | renew | drop => rfl

/-- The hub's keys are what its log says last. -/
structure Recorded (c : PresenceConfig) : Prop where
  word : c.state.rooms.confirmedGone = lastWord c.log
  seen : c.state.lastSeen = lastSeenOf c.log

theorem lastWord_append (log events : List PresenceEvent) :
    lastWord (log ++ events) = events.foldl heard (lastWord log) := List.foldl_append

theorem lastSeenOf_append (log events : List PresenceEvent) :
    lastSeenOf (log ++ events) = events.foldl seenAt (lastSeenOf log) := List.foldl_append

theorem presenceAnswer_true_iff (occupied : Bool) (pending : Option PendingPeerLeft) (gone : Option ToldPresence)
    (lastSeenMs : Option Nat) (nowMs : Nat) :
    presenceAnswer occupied pending gone lastSeenMs nowMs = some true ↔ occupied = true := by
  unfold presenceAnswer
  generalize pending.any _ = waits
  generalize (pending.isNone && _) = aged
  cases occupied <;> cases waits <;> cases aged <;> cases gone with
  | none => decide
  | some word => cases word <;> decide

theorem presenceAnswer_false_iff (occupied : Bool) (pending : Option PendingPeerLeft) (gone : Option ToldPresence)
    (lastSeenMs : Option Nat) (nowMs : Nat) :
    presenceAnswer occupied pending gone lastSeenMs nowMs = some false ↔
      occupied = false ∧
        (¬ ∃ p ∈ pending, nowMs ≤ Lane.saturatingAdd p.dueAtMs peerLeftDebounceMs) ∧
        (gone = some .absent ∨ pending = none ∧
          ∃ t ∈ lastSeenMs, Lane.saturatingAdd t presenceIdleWindowMs ≤ nowMs) := by
  have waits : (∃ p ∈ pending, nowMs ≤ Lane.saturatingAdd p.dueAtMs peerLeftDebounceMs) ↔
      pending.any (fun p => nowMs ≤ Lane.saturatingAdd p.dueAtMs peerLeftDebounceMs) = true := by
    simp only [Option.any_eq_true, Option.mem_def, decide_eq_true_eq]
  have aged : (pending = none ∧ ∃ t ∈ lastSeenMs, Lane.saturatingAdd t presenceIdleWindowMs ≤ nowMs) ↔
      (pending.isNone && lastSeenMs.any (fun t => Lane.saturatingAdd t presenceIdleWindowMs ≤ nowMs)) = true := by
    simp only [Bool.and_eq_true, Option.isNone_iff_eq_none, Option.any_eq_true, Option.mem_def, decide_eq_true_eq]
  rw [waits, aged]
  unfold presenceAnswer
  generalize pending.any _ = waits
  generalize (pending.isNone && _) = aged
  cases occupied <;> cases waits <;> cases aged <;> cases gone with
  | none => decide
  | some word => cases word <;> decide

/-- What the log holds when a read answers. -/
def heardBy (c : PresenceConfig) (room : String) (nowMs : Nat) : List PresenceEvent :=
  c.log ++ ((checkStamps c.state.rooms nowMs none room).map .stamped ++
    (roomStillOccupied c.state.rooms nowMs none none room).2.2.map .room)

theorem lastWord_heardBy {c : PresenceConfig} (recorded : Recorded c) (room : String) (nowMs : Nat) :
    lastWord (heardBy c room nowMs) = (roomStillOccupied c.state.rooms nowMs none none room).2.1.confirmedGone := by
  have checked := unconfirmed_check c.state.rooms nowMs room
  rw [heardBy, lastWord_append, List.foldl_append, foldl_heard_stamps, foldl_heard_rooms checked.silent, ← recorded.word]
  exact checked.gone.symm

theorem readingOf_told {c : PresenceConfig} (recorded : Recorded c) (room : String) (nowMs answeredMs : Nat) :
    Told (heardBy c room nowMs) (.answered (readingOf c.state room nowMs answeredMs)) := by
  have seen : lastSeenOf (heardBy c room nowMs) =
      (checkStamps c.state.rooms nowMs none room).foldl stampSeen c.state.lastSeen := by
    rw [heardBy, lastSeenOf_append, List.foldl_append, foldl_seenAt_stamps, foldl_seenAt_rooms, recorded.seen]
  have empty := not_occupied_iff c.state.rooms nowMs room
  rw [Told, Reading.Undecided, Reading.Idle, lastWord_heardBy recorded, seen]
  constructor
  · rw [readingOf, presenceAnswer_true_iff, ne_eq, ← empty, Bool.not_eq_false]
  · rw [readingOf, presenceAnswer_false_iff, ← empty]
    refine and_congr_right (fun free => ?_)
    simp [free]

theorem recorded_step (owner : Owner) {c : PresenceConfig} (recorded : Recorded c) (input : PresenceInput) :
    Recorded ((presenceMachine owner).advance c input) where
  word := by
    rw [Machine.advance, lastWord_append, ← recorded.word]
    cases input with
    | room input clock =>
      simp only [presenceMachine, presenceStep, List.foldl_append, foldl_heard_stamps]
      exact (heard_step owner c.state.rooms input).symm
    | touch | writeBack | deadline => rfl
    | read room nowMs answeredMs =>
      have checked := unconfirmed_check c.state.rooms nowMs room
      simp only [presenceMachine, presenceStep, handlePresence]
      split
      · rfl
      · simp only [List.foldl_append, foldl_heard_stamps]
        rw [foldl_heard_rooms checked.silent]
        exact checked.gone
  seen := by
    rw [Machine.advance, lastSeenOf_append, ← recorded.seen]
    cases input with
    | room input clock =>
      simp only [presenceMachine, presenceStep, List.foldl_append, foldl_seenAt_stamps, foldl_seenAt_rooms]
      cases joinOf owner input <;> rfl
    | touch | writeBack | deadline => rfl
    | read room nowMs answeredMs =>
      simp only [presenceMachine, presenceStep, handlePresence]
      split
      · rfl
      · simp only [List.foldl_append, foldl_seenAt_stamps, foldl_seenAt_rooms]
        rfl

/-- A step says nothing of the answers in the log but that of a read, which it writes last. -/
theorem preceded_step (owner : Owner) {p : List PresenceEvent → PresenceEvent → Prop}
    (free : ∀ before event, (∀ reading, event ≠ .answered reading) → p before event) {c : PresenceConfig}
    (preceded : Preceded p c.log)
    (read : ∀ room nowMs answeredMs, p (heardBy c room nowMs) (.answered (readingOf c.state room nowMs answeredMs)))
    (input : PresenceInput) : Preceded p ((presenceMachine owner).advance c input).log := by
  have quiet {events : List PresenceEvent} (other : ∀ event ∈ events, ∀ reading, event ≠ .answered reading) :
      Preceded p (c.log ++ events) :=
    (preceded_append_iff (fun event member before => free before event (other event member))).mpr preceded
  cases input with
  | room input clock =>
    apply quiet
    simp [presenceMachine, presenceStep, or_imp, forall_and]
  | touch | writeBack | deadline =>
    apply quiet
    simp [presenceMachine, presenceStep]
  | read room nowMs answeredMs =>
    by_cases named : room = ""
    · apply quiet
      simp [presenceMachine, presenceStep, handlePresence, named]
    · have whole : ((presenceMachine owner).advance c (.read room nowMs answeredMs)).log =
          heardBy c room nowMs ++ [.answered (readingOf c.state room nowMs answeredMs)] := by
        simp only [Machine.advance, presenceMachine, presenceStep, handlePresence, if_neg named, heardBy,
          List.append_assoc]
      rw [whole]
      refine Preceded.snoc (quiet ?_) (read room nowMs answeredMs)
      simp [or_imp, forall_and]

/-- Whatever happens to a hub, it answers `true` exactly of the rooms that are held, and `false` exactly of those whose
departure was confirmed after they were joined last, or that nothing was heard of for a window. -/
theorem presence_told (owner : Owner) (inputs : List PresenceInput) :
    Preceded Told ((presenceMachine owner).run presenceStart inputs).log := by
  have start : Recorded presenceStart ∧ Preceded Told presenceStart.log := ⟨⟨rfl, rfl⟩, preceded_nil⟩
  refine (@Machine.run_kept _ _ _ (presenceMachine owner) (fun c => Recorded c ∧ Preceded Told c.log) ?_ _ start inputs).2
  intro c input kept
  constructor
  · exact recorded_step owner kept.1 input
  · apply preceded_step owner _ kept.2 (readingOf_told kept.1)
    intro before event other
    cases event with
    | answered reading => exact absurd rfl (other reading)
    | joined | stamped | room => trivial

/-! Where sessions go by closing, a room that was joined has its departure pending until it is confirmed. -/

/-- What the registry and the sockets hold, lapsed or not. -/
def stillHeld (w : RoomWorld) (room : String) : Prop :=
  (∃ s ∈ w.sockets.rows, room ∈ s.attachment.joinedRooms) ∨
    ∃ sid entry, w.registry.find? sid = some entry ∧ room ∈ entry.joinedRooms

def heldOrPending (w : RoomWorld) (room : String) : Prop :=
  stillHeld w room ∨ (w.pending.find? room).isSome = true

theorem stillHeld_of_raw {w : RoomWorld} {skip : Option Nat} {room : String} (held : rawHold w.sockets skip room = true) :
    stillHeld w room := by
  obtain ⟨s, member, holds⟩ := List.any_eq_true.mp held
  simp only [Bool.and_eq_true, decide_eq_true_eq] at holds
  exact .inl ⟨s, member, holds.2⟩

/-- The list leaves no room behind: it is held by a live session, or armed. -/
theorem listSubscribers_heldOrPending {w : RoomWorld} (owned : Owned w.registry) (nowMs : Nat) {room : String}
    (before : heldOrPending w room) : heldOrPending (listSubscribers w nowMs).1 room := by
  rcases find?_armRooms nowMs (lapsedDepartures (lapsedRooms w nowMs)) w.pending room with
    ⟨-, leaver, armed⟩ | ⟨other, same⟩
  · exact .inr (by simp only [listSubscribers, armed, Option.isSome_some])
  · rcases before with (raw | ⟨sid, entry, stored, holds⟩) | pending
    · exact .inl (.inl raw)
    · by_cases lapsed : expired nowMs entry = true
      · have spared : room ∉ lapsedRooms w nowMs := fun inside =>
          other ((mem_lapsedDepartures _ room).mpr ⟨inside, lapsedRooms_named owned inside⟩)
        have walked : room ∈ (listLapsed nowMs w.registry).flatMap (fun e => closeWalk e.joinedRooms e.leftRooms) :=
          List.mem_flatMap.mpr ⟨entry, List.mem_filter.mpr ⟨((w.registry.find?_eq_some sid entry).mp stored).1, lapsed⟩,
            (mem_closeWalk _ _ room).mpr (.inl holds)⟩
        have kept : (rawHold w.sockets none room || rowsHold (listLive nowMs w.registry).rows none room) = true := by
          by_contra loose
          exact spared (List.mem_filter.mpr ⟨walked, by simpa using loose⟩)
        rcases Bool.or_eq_true_iff.mp kept with raw | rows
        · exact .inl (stillHeld_of_raw raw)
        · obtain ⟨live, member, joined⟩ := List.any_eq_true.mp rows
          simp only [Bool.and_eq_true, decide_eq_true_eq] at joined
          rw [← listWrites_all] at member
          exact .inl (.inr ⟨live.sid, live,
            ((listWrites nowMs (fun _ => true) w.registry).find?_eq_some live.sid live).mpr ⟨member, rfl⟩, joined.2⟩)
      · refine .inl (.inr ⟨sid, stampLease nowMs entry, ?_, by rwa [stampLease_joinedRooms]⟩)
        simp [listSubscribers, find?_listWrites, stored, lapsed]
    · exact .inr (by simpa only [listSubscribers, same] using pending)

theorem check_heldOrPending {w : RoomWorld} (owned : Owned w.registry) (nowMs : Nat) (skipWs : Option Nat)
    (skipSid : Option String) (room : String) {other : String} (before : heldOrPending w other) :
    heldOrPending (roomStillOccupied w nowMs skipWs skipSid room).2.1 other := by
  unfold roomStillOccupied
  split
  · exact before
  · exact listSubscribers_heldOrPending owned nowMs before

/-- A room the check finds empty is not held after it. -/
theorem not_stillHeld_of_empty {w : RoomWorld} {nowMs : Nat} {room : String}
    (empty : (roomStillOccupied w nowMs none none room).1 = false) : ¬ stillHeld (listSubscribers w nowMs).1 room := by
  have nobody := (not_occupied_iff w nowMs room).mp empty
  rw [roomHolders, List.append_eq_nil_iff, List.map_eq_nil_iff, List.map_eq_nil_iff, ← rawHold_eq_false,
    ← rowsHold_eq_false] at nobody
  rintro (⟨s, member, holds⟩ | ⟨sid, entry, stored, holds⟩)
  · have raw : rawHold w.sockets none room = true := List.any_eq_true.mpr ⟨s, member, by simpa using holds⟩
    rw [nobody.1] at raw
    cases raw
  · have member := ((Table.find?_eq_some _ sid entry).mp stored).1
    simp only [listSubscribers, listWrites_all] at member
    have rows : rowsHold (listLive nowMs w.registry).rows none room = true :=
      List.any_eq_true.mpr ⟨entry, member, by simpa using holds⟩
    rw [nobody.2] at rows
    cases rows

theorem check_owned {w : RoomWorld} (owned : Owned w.registry) (nowMs : Nat) (skipWs : Option Nat)
    (skipSid : Option String) (room : String) : Owned (roomStillOccupied w nowMs skipWs skipSid room).2.1.registry := by
  unfold roomStillOccupied
  split
  · exact owned
  · exact owned.list nowMs _

/-- A room the check finds occupied is held after it. -/
theorem stillHeld_of_occupied {w : RoomWorld} {nowMs : Nat} {skipWs : Option Nat} {skipSid : Option String}
    {room : String} (occupied : (roomStillOccupied w nowMs skipWs skipSid room).1 = true) :
    stillHeld (roomStillOccupied w nowMs skipWs skipSid room).2.1 room := by
  unfold roomStillOccupied at occupied ⊢
  split at occupied
  · rename_i raw
    rw [if_pos raw]
    exact stillHeld_of_raw raw
  · rename_i raw
    rw [if_neg raw]
    obtain ⟨live, member, joined⟩ := List.any_eq_true.mp occupied
    simp only [Bool.and_eq_true, decide_eq_true_eq] at joined
    rw [← listWrites_all] at member
    exact .inr ⟨live.sid, live,
      ((listWrites nowMs (fun _ => true) w.registry).find?_eq_some live.sid live).mpr ⟨member, rfl⟩, joined.2⟩

theorem armRoom_heldOrPending {w : RoomWorld} (nowMs : Nat) (armed leaver : String) {room : String}
    (before : heldOrPending w room) :
    heldOrPending { w with pending := armRoom nowMs w.pending (armed, leaver) } room := by
  rcases before with held | pending
  · exact .inl held
  · refine .inr ?_
    simp only [armRoom, Table.find?_upsert]
    split
    · rfl
    · exact pending

/-- One room of a close: what was held or pending still is, and the room itself is one or the other. -/
theorem departRoom_heldOrPending {r : RoomWorld × List RoomEvent} (owned : Owned r.1.registry) (nowMs : Nat)
    (skipWs : Option Nat) (skipSid : Option String) (leaver room : String) :
    Owned (departRoom nowMs skipWs skipSid leaver r room).1.registry ∧
      heldOrPending (departRoom nowMs skipWs skipSid leaver r room).1 room ∧
      ∀ other, heldOrPending r.1 other → heldOrPending (departRoom nowMs skipWs skipSid leaver r room).1 other := by
  have after := check_owned owned nowMs skipWs skipSid room
  unfold departRoom
  simp only
  split
  · rename_i occupied
    exact ⟨after, .inl (stillHeld_of_occupied occupied),
      fun other before => check_heldOrPending owned nowMs skipWs skipSid room before⟩
  · refine ⟨after, .inr ?_, fun other before => ?_⟩
    · simp [armRoom, Table.find?_upsert]
    · apply armRoom_heldOrPending
      exact check_heldOrPending owned nowMs skipWs skipSid room before

theorem departRooms_heldOrPending {r : RoomWorld × List RoomEvent} (owned : Owned r.1.registry) (nowMs : Nat)
    (skipWs : Option Nat) (skipSid : Option String) (leaver : String) (rooms : List String) :
    Owned (rooms.foldl (departRoom nowMs skipWs skipSid leaver) r).1.registry ∧
      ∀ other, other ∈ rooms ∨ heldOrPending r.1 other →
        heldOrPending (rooms.foldl (departRoom nowMs skipWs skipSid leaver) r).1 other := by
  induction rooms generalizing r with
  | nil => exact ⟨owned, fun other before => before.resolve_left List.not_mem_nil⟩
  | cons room rest ih =>
    obtain ⟨owned', own, kept⟩ := departRoom_heldOrPending owned nowMs skipWs skipSid leaver room
    obtain ⟨owned'', all⟩ := ih owned'
    refine ⟨owned'', fun other before => all other ?_⟩
    rcases before with named | held
    · rcases List.mem_cons.mp named with rfl | later
      · exact .inr own
      · exact .inl later
    · exact .inr (kept other held)

/-- A close latches the socket, an unregister deletes the entry; either walks the rooms it held. -/
theorem teardown_heldOrPending {w : RoomWorld} (owned : Owned w.registry) (id nowMs : Nat) :
    Owned (teardownDepartedSocket w id nowMs).1.registry ∧
      ∀ room, heldOrPending w room → heldOrPending (teardownDepartedSocket w id nowMs).1 room := by
  unfold teardownDepartedSocket
  split
  · exact ⟨owned, fun _ before => before⟩
  · rename_i s stored
    constructor
    · exact (departRooms_heldOrPending (by exact owned) ..).1
    · intro room before
      apply (departRooms_heldOrPending (by exact owned) ..).2
      rcases before with (⟨other, member, holds⟩ | entry) | pending
      · by_cases own : other.id = id
        · rw [(w.sockets.find?_eq_some id other).mpr ⟨member, own⟩] at stored
          cases stored
          exact .inl ((mem_closeWalk _ _ room).mpr (.inl holds))
        · exact .inr (.inl (.inl ⟨other, List.mem_map.mpr ⟨other, member, if_neg own⟩, holds⟩))
      · exact .inr (.inl (.inr entry))
      · exact .inr (.inr pending)

theorem unregister_heldOrPending {w : RoomWorld} (owned : Owned w.registry) (sid : String) (nowMs : Nat) :
    Owned (unregisterSession w sid nowMs).1.registry ∧
      ∀ room, heldOrPending w room → heldOrPending (unregisterSession w sid nowMs).1 room := by
  have others {room : String} (before : heldOrPending w room) :
      (∃ entry, w.registry.find? sid = some entry ∧ room ∈ entry.joinedRooms) ∨
        heldOrPending { w with registry := w.registry.keep (fun e => e.sid ≠ sid) } room := by
    rcases before with (raw | ⟨other, entry, stored, holds⟩) | pending
    · exact .inr (.inl (.inl raw))
    · by_cases own : sid = other
      · exact .inl ⟨entry, own ▸ stored, holds⟩
      · exact .inr (.inl (.inr ⟨other, entry, by rw [Table.find?_delete, if_neg own, stored], holds⟩))
    · exact .inr (.inr pending)
  unfold unregisterSession
  simp only
  split
  · rename_i absent
    refine ⟨owned.keep _, fun room before => ?_⟩
    rcases others before with ⟨entry, stored, -⟩ | rest
    · rw [absent] at stored
      cases stored
    · exact rest
  · rename_i entry stored
    have walked {room : String} (before : heldOrPending w room) :
        room ∈ closeWalk entry.joinedRooms entry.leftRooms ∨
          heldOrPending { w with registry := w.registry.keep (fun e => e.sid ≠ sid) } room := by
      rcases others before with ⟨same, found, holds⟩ | rest
      · rw [stored] at found
        cases found
        exact .inl ((mem_closeWalk _ _ room).mpr (.inl holds))
      · exact .inr rest
    split
    · rename_i nowhere
      refine ⟨owned.keep _, fun room before => (walked before).resolve_left ?_⟩
      rw [nowhere]
      exact List.not_mem_nil
    · rename_i first rest walk
      have named := owned sid entry stored first ((mem_closeWalk _ _ first).mp (by simp [walk]))
      split
      · constructor
        · exact (departRooms_heldOrPending (by exact owned.keep _) ..).1
        · intro room before
          apply (departRooms_heldOrPending (by exact owned.keep _) ..).2
          rw [← walk]
          exact walked before
      · rename_i unnamed
        exact absurd unnamed named

/-- What a step that goes by closing keeps: the rooms have owners, and one that was joined since its departure was
confirmed last is held, or its departure is pending. -/
structure Followed (w : RoomWorld) : Prop where
  owned : Owned w.registry
  followed : ∀ room, w.confirmedGone room = some .present → heldOrPending w room

/-- A session goes by closing; it has a socket to join by, or a name. -/
def ByClosing (w : RoomWorld) : RoomInput → Prop
  | .rawJoin id _ => (w.sockets.find? id).isSome = true
  | .join sid _ _ => sid ≠ ""
  | .rawLeave .. | .leave .. | .drop _ => False
  | _ => True

def GoesByClosing (c : PresenceConfig) : PresenceInput → Prop
  | .room input _ => ByClosing c.state.rooms input
  | .writeBack .. => False
  | _ => True

theorem Followed.moved {w w' : RoomWorld} (before : Followed w) (gone : w'.confirmedGone = w.confirmedGone)
    (after : Owned w'.registry ∧ ∀ room, heldOrPending w room → heldOrPending w' room) : Followed w' where
  owned := after.1
  followed room joined := after.2 room (before.followed room (gone ▸ joined))

theorem Followed.joins {w w' : RoomWorld} (before : Followed w) {room : String}
    (gone : w'.confirmedGone = Function.update w.confirmedGone room (some .present)) (owned : Owned w'.registry)
    (held : heldOrPending w' room) (others : ∀ other, heldOrPending w other → heldOrPending w' other) : Followed w' where
  owned := owned
  followed other joined := by
    by_cases same : other = room
    · rwa [same]
    · rw [gone, Function.update_of_ne same] at joined
      exact others other (before.followed other joined)

theorem followed_turn {w : RoomWorld} (before : Followed w) (nowMs : Nat) : Followed (alarmTurn w nowMs).1 := by
  cases run : w.alarmRun with
  | none => simpa [alarmTurn, run] using before
  | some rows =>
    cases rows with
    | nil => simpa [alarmTurn, run] using before
    | cons row rest =>
      have deleted {room : String} (apart : row.room ≠ room) (held : heldOrPending w room) :
          heldOrPending (w.deleted row rest) room := by
        refine held.imp id (fun pending => ?_)
        rwa [RoomWorld.deleted, Table.find?_delete, if_neg apart]
      have owned := @check_owned (w.deleted row rest) before.owned nowMs none none row.room
      have kept {room : String} (held : heldOrPending (w.deleted row rest) room) :=
        @check_heldOrPending (w.deleted row rest) before.owned nowMs none none row.room room held
      have checked := unconfirmed_check (w.deleted row rest) nowMs row.room
      cases occupied : (roomStillOccupied (w.deleted row rest) nowMs none none row.room).1 with
      | true =>
        rw [alarmTurn_occupied run occupied]
        refine ⟨owned, fun room joined => ?_⟩
        by_cases same : row.room = room
        · exact .inl (same ▸ stillHeld_of_occupied occupied)
        · rw [checked.gone] at joined
          exact kept (deleted same (before.followed room joined))
      | false =>
        rw [(check_of_not_occupied occupied).1] at owned kept
        rw [alarmTurn_empty run occupied]
        refine ⟨owned, fun room joined => ?_⟩
        by_cases same : room = row.room
        · simp [same] at joined
        · simp only [Function.update_of_ne same] at joined
          exact kept (deleted (Ne.symm same) (before.followed room joined))

theorem followed_room (owner : Owner) {w : RoomWorld} (before : Followed w) {input : RoomInput}
    (closing : ByClosing w input) : Followed (roomStep owner w input).1 := by
  have same : Followed (w, ([] : List RoomEvent)).1 := before
  cases input with
  | rawOpen id nowMs =>
    refine before.moved rfl ⟨before.owned, fun room => Or.imp (Or.imp_left ?_) (fun pending => pending)⟩
    rintro ⟨s, member, holds⟩
    refine ⟨s, ?_, holds⟩
    simp only [roomStep, Table.rows_insertIgnore]
    split
    · exact List.mem_append_left _ member
    · exact member
  | rawJoin id room =>
    simp only [roomStep]
    split
    · obtain ⟨s, stored⟩ := Option.isSome_iff_exists.mp closing
      obtain ⟨member, named⟩ := (w.sockets.find?_eq_some id s).mp stored
      have grown (a : SocketAttachment) (other : String) :
          other ∈ (a.join room).joinedRooms ↔ other = room ∨ other ∈ a.joinedRooms := by
        have joined := mem_recordJoin a.base ⟨a.joinedRooms, a.leftRooms⟩ room other
        unfold SocketAttachment.join SocketAttachment.change
        cases changed : recordJoin a.base ⟨a.joinedRooms, a.leftRooms⟩ room <;> simpa [changed] using joined
      refine before.joins rfl before.owned (.inl (.inl ⟨s.change (fun a => a.join room), ?_, ?_⟩)) ?_
      · exact List.mem_map.mpr ⟨s, member, if_pos named⟩
      · exact (grown s.attachment room).mpr (.inl rfl)
      · rintro other ((⟨s', member', holds⟩ | entry) | pending)
        · refine .inl (.inl ⟨_, List.mem_map.mpr ⟨s', member', rfl⟩, ?_⟩)
          split
          · exact (grown s'.attachment other).mpr (.inr holds)
          · exact holds
        · exact .inl (.inr entry)
        · exact .inr pending
    · exact same
  | rawClose id nowMs =>
    exact before.moved (unconfirmed_teardown w id nowMs).gone (teardown_heldOrPending before.owned id nowMs)
  | register sid nowMs =>
    refine before.moved rfl ⟨before.owned.register sid nowMs, fun room => Or.imp (Or.imp_right ?_) id⟩
    rintro ⟨other, entry, stored, holds⟩
    simp only [roomStep, find?_handleSocketioRegister]
    by_cases own : sid = other
    · subst own
      by_cases named : sid = ""
      · exact ⟨sid, entry, by simp [named, ← stored], holds⟩
      · refine ⟨sid, _, if_pos ⟨⟨named, rfl⟩, rfl⟩, ?_⟩
        simpa [registered, Registry.get, allTake, stored] using holds
    · exact ⟨other, entry, by rw [if_neg (fun both => own both.2), stored], holds⟩
  | join sid room nowMs =>
    simp only [roomStep]
    split
    · rename_i valid
      have identity : roomIdentity room ≠ none := by
        rw [roomIdentity_of_owned valid]
        exact Option.some_ne_none _
      have found (other : String) := find?_updateSocketioRooms (fun base record => recordJoin base record room) w.registry
        allTake sid nowMs other
      have grown (held : String) : held ∈ (changed (fun base record => recordJoin base record room) w.registry sid
          nowMs).joinedRooms ↔ held = room ∨ held ∈ ((w.registry.find? sid).getD
            (freshSocketioEntry sid nowMs)).joinedRooms := mem_recordJoin _ _ room held
      refine before.joins rfl (before.owned.join identity allTake sid nowMs) (.inl (.inr ⟨sid,
        changed (fun base record => recordJoin base record room) w.registry sid nowMs, ?_, ?_⟩)) ?_
      · exact (found sid).trans (if_pos ⟨⟨closing, rfl, rfl⟩, rfl⟩)
      · exact (grown room).mpr (.inl rfl)
      · rintro held ((raw | ⟨other, entry, stored, holds⟩) | pending)
        · exact .inl (.inl raw)
        · by_cases own : sid = other
          · subst own
            refine .inl (.inr ⟨sid, _, (found sid).trans (if_pos ⟨⟨closing, rfl, rfl⟩, rfl⟩), (grown held).mpr (.inr ?_)⟩)
            rw [stored]
            exact holds
          · refine .inl (.inr ⟨other, entry, (found other).trans ?_, holds⟩)
            rw [if_neg (fun both => own both.2), stored]
        · exact .inr pending
    · exact same
  | renew sid nowMs =>
    refine before.moved rfl ⟨before.owned.renew allTake sid nowMs, fun room => Or.imp (Or.imp_right ?_) id⟩
    rintro ⟨other, entry, stored, holds⟩
    obtain ⟨lease, renewed⟩ := find?_renewLease w.registry allTake sid nowMs other
    rw [stored] at renewed
    exact ⟨other, _, renewed, holds⟩
  | unregister sid nowMs =>
    exact before.moved (unconfirmed_unregister w sid nowMs).gone (unregister_heldOrPending before.owned sid nowMs)
  | list nowMs =>
    exact before.moved rfl ⟨before.owned.list nowMs _, fun room => listSubscribers_heldOrPending before.owned nowMs⟩
  | ring nowMs =>
    simp only [roomStep]
    split
    · exact before.moved rfl ⟨before.owned, fun _ => id⟩
    · exact same
  | turn nowMs => exact followed_turn before nowMs
  | done =>
    simp only [roomStep]
    split
    · exact before.moved rfl ⟨before.owned, fun _ => id⟩
    · exact same
  | rawLeave | leave | drop => exact closing.elim

/-- An answer is not `false` of a room that was joined after its departure was confirmed last. -/
def NotFeigned (before : List PresenceEvent) : PresenceEvent → Prop
  | .answered r => r.present = some false → lastWord before r.room ≠ some .present
  | _ => True

theorem followed_read {c : PresenceConfig} (before : Followed c.state.rooms) (room : String) (nowMs answeredMs : Nat) :
    (readingOf c.state room nowMs answeredMs).present = some false →
      (roomStillOccupied c.state.rooms nowMs none none room).2.1.confirmedGone room ≠ some .present := by
  intro absent joined
  obtain ⟨empty, -, confirmed | ⟨settled, -⟩⟩ := (presenceAnswer_false_iff ..).mp absent
  · rw [if_neg (by simp [empty]), joined] at confirmed
    cases confirmed
  · -- the list has armed what it found lapsed, so a room that was joined is pending
    have listed := (check_of_not_occupied empty).1
    rw [if_neg (by simp [empty]), Option.map_eq_none_iff, listed] at settled
    have word : (listSubscribers c.state.rooms nowMs).1.confirmedGone room = some .present := listed ▸ joined
    rcases listSubscribers_heldOrPending before.owned nowMs (before.followed room word) with held | pending
    · exact not_stillHeld_of_empty empty held
    · rw [settled] at pending
      cases pending

theorem followed_step (owner : Owner) {c : PresenceConfig} (before : Followed c.state.rooms) {input : PresenceInput}
    (closing : GoesByClosing c input) : Followed ((presenceMachine owner).advance c input).state.rooms := by
  cases input with
  | room input clock => exact followed_room owner before closing
  | touch | deadline => exact before
  | writeBack => exact closing.elim
  | read room nowMs answeredMs =>
    simp only [Machine.advance, presenceMachine, presenceStep, handlePresence]
    split
    · exact before
    · exact before.moved (unconfirmed_check c.state.rooms nowMs room).gone ⟨check_owned before.owned nowMs none none room,
        fun other => check_heldOrPending before.owned nowMs none none room⟩

/-- Where sessions go by closing, a room is answered `false` only after a departure was confirmed, and not once it was
joined again: no room that was joined ages out. -/
theorem presence_not_feigned (owner : Owner) {inputs : List PresenceInput}
    (closing : (presenceMachine owner).Guarded GoesByClosing presenceStart inputs) :
    Preceded NotFeigned ((presenceMachine owner).run presenceStart inputs).log := by
  let inv (c : PresenceConfig) : Prop := Recorded c ∧ Followed c.state.rooms ∧ Preceded NotFeigned c.log
  have start : inv presenceStart :=
    ⟨⟨rfl, rfl⟩, ⟨fun _ _ found => (by cases found), fun _ joined => (by cases joined)⟩, preceded_nil⟩
  refine ((presenceMachine owner).run_invariant (fun c input kept ok => ?_) start closing).2.2
  obtain ⟨recorded, followed, honest⟩ := kept
  refine ⟨recorded_step owner recorded input, followed_step owner followed ok, ?_⟩
  apply preceded_step owner _ honest
  · intro room nowMs answeredMs absent
    rw [lastWord_heardBy recorded]
    exact followed_read followed room nowMs answeredMs absent
  · intro before event other
    cases event with
    | answered reading => exact absurd rfl (other reading)
    | joined | stamped | room => trivial

def answersOf (log : List PresenceEvent) : List (Option Bool) :=
  log.filterMap (fun event =>
    match event with
    | .answered reading => some reading.present
    | _ => none)

/-- A socket joins, closes ten minutes later, and its departure is confirmed. -/
def closedRun : List PresenceInput :=
  [.room (.rawOpen 1 0) 0, .room (.rawJoin 1 (ownRoom "one")) 0, .read (ownRoom "one") 600000 600000,
    .room (.rawClose 1 600100) 600100, .read (ownRoom "one") 600200 600200, .room (.ring 604100) 604100,
    .room (.turn 604100) 604100, .read (ownRoom "one") 604200 604200]

theorem closedRun_answered :
    Preceded NotFeigned ((presenceMachine owner0).run presenceStart closedRun).log ∧
      answersOf ((presenceMachine owner0).run presenceStart closedRun).log = [some true, none, some false] := by
  refine ⟨presence_not_feigned owner0 ⟨trivial, ?_, trivial, trivial, trivial, trivial, trivial, trivial, trivial⟩, ?_⟩
  · exact rfl
  · decide +kernel

/-- A leave instead of the close: the room held a moment ago is answered `false`, with nothing confirmed. -/
example : answersOf ((presenceMachine owner0).run presenceStart
    [.room (.rawOpen 1 0) 0, .room (.rawJoin 1 (ownRoom "one")) 0, .read (ownRoom "one") 600000 600000,
      .room (.rawLeave 1 (ownRoom "one")) 600100, .read (ownRoom "one") 600101 600101]).log = [some true, some false] := by
  decide +kernel

end MessageRelay.Presence
