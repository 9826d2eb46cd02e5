import MessageRelay.Presence.LostUpdate
import MessageRelay.Presence.QuietWindow
import MessageRelay.Send.Acknowledged
import MessageRelay.Send.Repeated

/-! A session's events forwarded to its hub, each within two bounded attempts. An attempt that is abandoned at its bound
may land at any later time. A message's insert is guarded by its id; a room change overwrites. -/

namespace MessageRelay.Presence
open MessageRelay.Library MessageRelay.Session MessageRelay.Send

def forwardAttempts : Nat := 2

/-- An event of the client, as its hub dispatches it. -/
inductive ClientEvent where
  | joinRoom (data : Value)
  | leaveRoom (data : Value)
  | sendMessage (room : String) (message : ClientSendMessage) (payment : Option Value)

/-- What a landing meets in the hub: its storage calls, the clock, and the stores of a send. -/
structure Landing where
  calls : Calls
  nowMs : Nat
  weather : Weather

/-- The session's events in the client's order, the attempts made at the last of them where it is still in hand, and
the events whose abandoned attempts have not landed. -/
structure Forwards where
  registry : Registry
  world : Send.World
  events : List ClientEvent
  attempts : Option Nat
  abandoned : List Nat

inductive ForwardInput where
  | forward (event : ClientEvent)
  | answered (landing : Landing)
  | expired
  | late (j : Nat) (landing : Landing)

/-- An event took effect, by its place in the client's order; a row was stored. -/
inductive ForwardEvent where
  | landed (k : Nat) (event : ClientEvent)
  | stored (place : Place) (recipient messageId : String)

section
variable (path : StorePath) (owner : Owner) (sid : String)

/-- The room of a join or a leave that its hub does not refuse. -/
def ownedRoom (data : Value) : Option String := data.asStr.filter (validateRoomOwned owner)

/-- What an event makes of a room: joined, left, or nothing. -/
def ClientEvent.touch (room : String) : ClientEvent → Option Bool
  | .joinRoom data => if ownedRoom owner data = some room then some true else none
  | .leaveRoom data => if ownedRoom owner data = some room then some false else none
  | .sendMessage .. => none

/-- A room change by `update`, and whether it took effect. A refused one has none to take. -/
def changeRoom (update : Registry → Calls → String → String → Nat → Registry) (registry : Registry) (landing : Landing)
    (data : Value) : Registry × Bool :=
  match ownedRoom owner data with
  | none => (registry, true)
  | some room => (update registry landing.calls sid room landing.nowMs, completes sid landing.calls)

/-- The tables that gained the row. -/
def storedAt (w w' : Send.World) (recipient messageId : String) : List Place :=
  [Place.d1, Place.hub].filter (fun place =>
    (w.rowAt place recipient messageId).isNone && (w'.rowAt place recipient messageId).isSome)

def dispatchSocketioEvent (w : Forwards) (landing : Landing) (k : Nat) : ClientEvent → Forwards × List ForwardEvent
  | .joinRoom data =>
    let (registry, done) := changeRoom owner sid joinRoom w.registry landing data
    ({ w with registry := registry }, if done then [.landed k (.joinRoom data)] else [])
  | .leaveRoom data =>
    let (registry, done) := changeRoom owner sid leaveRoom w.registry landing data
    ({ w with registry := registry }, if done then [.landed k (.leaveRoom data)] else [])
  | .sendMessage room message payment =>
    let world := (processSendMessage path landing.weather owner.key room message payment w.world).2.2
    ({ w with world := world }, .landed k (.sendMessage room message payment) ::
      (storedAt w.world world message.recipient message.messageId).map
        (fun place => .stored place message.recipient message.messageId))

/-- The event a step lands. -/
def landingOf (w : Forwards) : ForwardInput → Option (Nat × Landing)
  | .answered landing => w.attempts.map (fun _ => (w.events.length - 1, landing))
  | .late j landing => w.abandoned[j]?.map (fun k => (k, landing))
  | _ => none

/-- What a step does to the session's side. -/
def handOver (w : Forwards) : ForwardInput → Forwards
  | .forward event =>
    if w.attempts.isNone then { w with events := w.events ++ [event], attempts := some 0 } else w
  | .answered _ => { w with attempts := none }
  | .expired =>
    match w.attempts with
    | none => w
    | some i =>
      { w with
        attempts := if i + 1 < forwardAttempts then some (i + 1) else none
        abandoned := w.abandoned ++ [w.events.length - 1] }
  | .late j _ => { w with abandoned := w.abandoned.eraseIdx j }

def forwards : Machine Forwards ForwardInput ForwardEvent where
  step w input :=
    match landingOf w input with
    | none => (handOver w input, [])
    | some (k, landing) =>
      match w.events[k]? with
      | none => (handOver w input, [])
      | some event => dispatchSocketioEvent path owner sid (handOver w input) landing k event

/-! What the client's order and the order of the landings make of a room. -/

/-- The last event that touches the room. -/
def lastTouch (room : String) (events : List ClientEvent) : Option Bool :=
  events.foldl (fun last event => (event.touch owner room).or last) none

def landedTouch (room : String) (last : Option Bool) : ForwardEvent → Option Bool
  | .landed _ event => (event.touch owner room).or last
  | .stored .. => last

def lastLanded (room : String) (log : List ForwardEvent) : Option Bool :=
  log.foldl (landedTouch owner room) none

def ForwardEvent.stores (recipient messageId : String) : ForwardEvent → Bool
  | .stored _ r i => r = recipient && i = messageId
  | .landed .. => false

/-- The send goes to no table while the other has its row. -/
def sendApart (weather : Weather) (w : Send.World) : ClientEvent → Bool
  | .sendMessage room message payment =>
    match validateWsSend owner.key room message payment with
    | .error _ => true
    | .ok request => apart path request owner.key weather w
  | _ => true

/-- What is asked of a step. A join or a leave lands with no later event of the client's landed that does the opposite
to the room, and a send keeps to the table that has its row. -/
def InOrder (c : Config Forwards ForwardEvent) (input : ForwardInput) : Prop :=
  ∀ k landing event, landingOf c.state input = some (k, landing) → c.state.events[k]? = some event →
    (∀ room b, event.touch owner room = some b → ∀ k' event', .landed k' event' ∈ c.log → k < k' →
      event'.touch owner room ≠ some (!b)) ∧ sendApart path owner landing.weather c.state.world event = true

end

/-! One landing of a room change. -/

section
variable {registry : Registry} {calls : Calls} {sid : String}

theorem find?_of_not_completes {mutate : Nat → RoomRecord → Option RoomRecord} {nowMs : Nat}
    (undone : completes sid calls = false) :
    (updateSocketioRooms mutate registry calls sid nowMs).find? sid = registry.find? sid := by
  have partly : ¬(sid ≠ "" ∧ calls.read = true ∧ calls.write = true) := by
    simpa [completes, and_assoc] using undone
  rw [find?_updateSocketioRooms, if_neg (fun both => partly both.1)]

theorem find?_of_completes {mutate : Nat → RoomRecord → Option RoomRecord} {nowMs : Nat}
    (done : completes sid calls = true) :
    (updateSocketioRooms mutate registry calls sid nowMs).find? sid = some (changed mutate registry sid nowMs) := by
  have all : sid ≠ "" ∧ calls.read = true ∧ calls.write = true := by
    simpa [completes, and_assoc] using done
  rw [find?_updateSocketioRooms, if_pos ⟨all, rfl⟩]

theorem mem_heldRooms_joinRoom (done : completes sid calls = true) (room held : String) (nowMs : Nat) :
    held ∈ heldRooms ((joinRoom registry calls sid room nowMs).find? sid) ↔
      held = room ∨ held ∈ heldRooms (registry.find? sid) := by
  rw [joinRoom, find?_of_completes done]
  cases stored : registry.find? sid <;>
    simp [changed, stored, heldRooms, SocketIoRegistryEntry.setRooms, mem_recordJoin, SocketIoRegistryEntry.rooms,
      freshSocketioEntry]

theorem mem_heldRooms_leaveRoom (done : completes sid calls = true) (room held : String) (nowMs : Nat) :
    held ∈ heldRooms ((leaveRoom registry calls sid room nowMs).find? sid) ↔
      held ∈ heldRooms (registry.find? sid) ∧ held ≠ room := by
  rw [leaveRoom, find?_of_completes done]
  cases stored : registry.find? sid <;>
    simp [changed, stored, heldRooms, SocketIoRegistryEntry.setRooms, mem_recordLeave, SocketIoRegistryEntry.rooms,
      freshSocketioEntry]

end

/-! One landing of a send. -/

section
variable {path : StorePath} {weather : Weather} {sender room : String} {message : ClientSendMessage}
  {payment : Option Value} {w : Send.World}

/-- What a row stays: there, and not the archive's. -/
theorem sent_of_grows {w' : Send.World} (grows : Grows w w') {place : Place} {recipient messageId : String}
    (sent : w.sent place recipient messageId = true) : w'.sent place recipient messageId = true := by
  cases place with
  | d1 =>
    cases found : w.db.row? messageId with
    | none => simp [World.sent, World.rowAt, found] at sent
    | some row => simpa [World.sent, World.rowAt, found, grows.rows _ _ found] using sent
  | hub =>
    cases found : (w.hubs recipient).find? messageId with
    | none => simp [World.sent, World.rowAt, found] at sent
    | some row => simp [World.sent, World.rowAt, grows.hubs _ _ _ found]

theorem grows_processSendMessage : Grows w (processSendMessage path weather sender room message payment w).2.2 := by
  unfold processSendMessage
  cases validateWsSend sender room message payment with
  | error refused => exact Grows.refl w
  | ok request => exact grows_processSend path weather request sender w

theorem storedAt_of_same {w' : Send.World} {recipient messageId : String}
    (same : ∀ place, w'.rowAt place recipient messageId = w.rowAt place recipient messageId) :
    storedAt w w' recipient messageId = [] := by
  rw [storedAt, List.filter_eq_nil_iff]
  intro place _
  rw [same]
  cases w.rowAt place recipient messageId <;> simp

/-- A send that keeps to its row's table stores nothing, or one row that neither table had. -/
theorem storedAt_send {owner : Owner}
    (kept : sendApart path owner weather w (.sendMessage room message payment) = true) :
    let w' := (processSendMessage path weather owner.key room message payment w).2.2
    storedAt w w' message.recipient message.messageId = [] ∨
      ∃ place, storedAt w w' message.recipient message.messageId = [place] ∧
        w'.sent place message.recipient message.messageId = true ∧
        ∀ q, w.sent q message.recipient message.messageId = false := by
  intro w'
  simp only [sendApart] at kept
  simp only [w', processSendMessage]
  cases valid : validateWsSend owner.key room message payment with
  | error refused => exact .inl (storedAt_of_same (fun _ => rfl))
  | ok request =>
    rw [valid] at kept
    have single : request.recipients = [(message.recipient, message.messageId)] := (validateWsSend_ok valid).1
    rcases @processSend_cases path request owner.key weather w (by rw [single]; simp) with
      ⟨-, same⟩ | ⟨writing, contexts, ready, -, pairs, looped⟩
    · simp only [same]
      exact .inl (storedAt_of_same (fun _ => rfl))
    · rw [single] at pairs
      obtain ⟨ctx, rfl, pair⟩ := List.map_eq_singleton_iff.mp pairs
      obtain ⟨toward, named⟩ := Prod.ext_iff.mp pair
      simp only at toward named
      have elsewhere : w.sent (ctx.place path writing).other message.recipient message.messageId = false := by
        simpa [apart, ready, toward, named] using kept
      have others : ∀ q, q ≠ ctx.place path writing → (processSend path weather request owner.key w).2.2.rowAt q
          message.recipient message.messageId = w.rowAt q message.recipient message.messageId := by
        intro q away
        exact looped.others q _ _ (by simpa using .inl away)
      have here := looped.here ctx (by simp)
      rw [toward, named] at here
      rcases here with same | ⟨free, new⟩
      · left
        apply storedAt_of_same
        intro q
        by_cases own : q = ctx.place path writing
        · rw [own, same]
        · exact others q own
      · right
        refine ⟨ctx.place path writing, ?_, ?_, ?_⟩
        · cases place : ctx.place path writing with
          | d1 =>
            rw [place] at free new others
            simp [storedAt, free, new, others]
          | hub =>
            rw [place] at free new others
            simp [storedAt, free, new, others]
        · rw [World.sent, new]
          cases place : ctx.place path writing <;> simp [Context.row, written, place]
        · intro q
          by_cases own : q = ctx.place path writing
          · simp [World.sent, own, free]
          · have other : q = (ctx.place path writing).other := by
              revert own
              cases q <;> cases ctx.place path writing <;> simp [Place.other]
            rw [other]
            exact elsewhere

end

/-! Whole runs. -/

section
variable {path : StorePath} {owner : Owner} {sid : String}

variable (owner) in
theorem lastLanded_append (room : String) (log : List ForwardEvent) (k : Nat) (event : ClientEvent)
    {more : List ForwardEvent} (stores : ∀ e ∈ more, ∃ place r i, e = .stored place r i) :
    lastLanded owner room (log ++ .landed k event :: more) =
      (event.touch owner room).or (lastLanded owner room log) := by
  have idle : ∀ e ∈ more, ∀ last, landedTouch owner room last e = last := by
    intro e member last
    obtain ⟨_, _, _, rfl⟩ := stores e member
    rfl
  have split : log ++ .landed k event :: more = (log ++ [.landed k event]) ++ more := by simp
  rw [lastLanded, split, foldl_append_idle idle, List.foldl_append]
  rfl

/-- With no landing that touches the room, nothing is known of it. -/
theorem lastLanded_eq_none {room : String} {log : List ForwardEvent}
    (untouched : ∀ k event, .landed k event ∈ log → event.touch owner room = none) :
    lastLanded owner room log = none := by
  have idle : ∀ e ∈ log, ∀ last, landedTouch owner room last e = last := by
    intro e member last
    cases e with
    | landed k event => simp [landedTouch, untouched k event member]
    | stored => rfl
  change ([] ++ log).foldl (landedTouch owner room) none = none
  rw [foldl_append_idle idle]
  rfl

variable (owner) in
theorem lastTouch_append (room : String) (events : List ClientEvent) (event : ClientEvent) :
    lastTouch owner room (events ++ [event]) = (event.touch owner room).or (lastTouch owner room events) := by
  rw [lastTouch, List.foldl_append]
  rfl

/-- The last touch is that of an event with none behind it, or there is none. -/
theorem lastTouch_cases (room : String) (events : List ClientEvent) :
    (lastTouch owner room events = none ∧
        ∀ (k : Nat) (event : ClientEvent), events[k]? = some event → event.touch owner room = none) ∨
      ∃ (k : Nat) (event : ClientEvent) (b : Bool), lastTouch owner room events = some b ∧ events[k]? = some event ∧
        event.touch owner room = some b ∧
        ∀ (k' : Nat) (event' : ClientEvent), events[k']? = some event' → (event'.touch owner room).isSome → k' ≤ k := by
  induction events using List.reverseRecOn with
  | nil => exact .inl ⟨rfl, by simp⟩
  | append_singleton front event ih =>
    have places : ∀ {k : Nat} {e : ClientEvent}, (front ++ [event])[k]? = some e →
        front[k]? = some e ∨ (k = front.length ∧ e = event) := by
      intro k e found
      rcases Nat.lt_trichotomy k front.length with before | here | after
      · exact .inl (by rwa [List.getElem?_append_left before] at found)
      · subst here
        simp at found
        exact .inr ⟨rfl, found.symm⟩
      · rw [List.getElem?_eq_none (by simp; omega)] at found
        cases found
    rw [lastTouch_append]
    cases touch : event.touch owner room with
    | some b =>
      refine .inr ⟨front.length, event, b, by simp, by simp, touch, ?_⟩
      intro k' event' found touches
      have inside := (List.getElem?_eq_some_iff.mp found).1
      simp at inside
      omega
    | none =>
      rw [Option.none_or]
      rcases ih with ⟨last, none⟩ | ⟨k, e, b, last, found, touched, latest⟩
      · refine .inl ⟨last, fun k e found => ?_⟩
        rcases places found with old | ⟨-, rfl⟩
        · exact none k e old
        · exact touch
      · have before : k < front.length := (List.getElem?_eq_some_iff.mp found).1
        refine .inr ⟨k, e, b, last, by rwa [List.getElem?_append_left before], touched, ?_⟩
        intro k' event' found' touches
        rcases places found' with old | ⟨-, rfl⟩
        · exact latest k' event' old touches
        · simp [touch] at touches

theorem getElem?_of_isPrefix {events later : List ClientEvent} (part : events <+: later) {k : Nat}
    {event : ClientEvent} (found : events[k]? = some event) : later[k]? = some event := by
  obtain ⟨more, rfl⟩ := part
  rwa [List.getElem?_append_left (List.getElem?_eq_some_iff.mp found).1]

variable (owner sid) in
/-- The registry follows the landings, the landing of a room's latest event has the last word on it, and the rows that
were stored are there. -/
structure Landed (c : Config Forwards ForwardEvent) : Prop where
  known : ∀ k event, .landed k event ∈ c.log → c.state.events[k]? = some event
  held : ∀ room, room ∈ heldRooms (c.state.registry.find? sid) ↔ lastLanded owner room c.log = some true
  last : ∀ room k event b, .landed k event ∈ c.log → event.touch owner room = some b →
    (∀ k' event', .landed k' event' ∈ c.log → (event'.touch owner room).isSome → k' ≤ k) →
    lastLanded owner room c.log = some b
  sent : ∀ place recipient messageId, .stored place recipient messageId ∈ c.log →
    c.state.world.sent place recipient messageId = true
  once : ∀ recipient messageId, (c.log.filter (·.stores recipient messageId)).length ≤ 1

/-- A step that lands nothing. -/
theorem Landed.quiet {c : Config Forwards ForwardEvent} (landed : Landed owner sid c) {w : Forwards}
    (events : c.state.events <+: w.events) (registry : w.registry.find? sid = c.state.registry.find? sid)
    (world : w.world = c.state.world) : Landed owner sid ⟨w, c.log⟩ where
  known k event member := getElem?_of_isPrefix events (landed.known k event member)
  held := by simpa [registry] using landed.held
  last := landed.last
  sent := by simpa [world] using landed.sent
  once := landed.once

/-- The latest touch of a room, once an event landed of which no later one landed does the opposite. -/
theorem Landed.last_or {c : Config Forwards ForwardEvent} (landed : Landed owner sid c) {k : Nat} {event : ClientEvent}
    (found : c.state.events[k]? = some event) {room : String}
    (inOrder : ∀ b, event.touch owner room = some b → ∀ k' event', .landed k' event' ∈ c.log → k < k' →
      event'.touch owner room ≠ some (!b))
    {k' : Nat} {event' : ClientEvent} {b : Bool} (member : .landed k' event' ∈ c.log ∨ k' = k ∧ event' = event)
    (touch : event'.touch owner room = some b) (self : (event.touch owner room).isSome → k ≤ k')
    (latest : ∀ k₂ event₂, .landed k₂ event₂ ∈ c.log → (event₂.touch owner room).isSome → k₂ ≤ k') :
    (event.touch owner room).or (lastLanded owner room c.log) = some b := by
  cases own : event.touch owner room with
  | none =>
    rcases member with old | ⟨rfl, rfl⟩
    · rw [Option.none_or]
      exact landed.last room k' event' b old touch latest
    · rw [own] at touch
      cases touch
  | some b' =>
    rw [Option.some_or]
    rcases member with old | ⟨rfl, rfl⟩
    · rcases (self (by simp [own])).lt_or_eq with before | rfl
      · have same := inOrder b' own k' event' old before
        rw [touch] at same
        cases b <;> cases b' <;> first | rfl | exact absurd rfl same
      · have one := (landed.known _ event' old).symm.trans found
        cases one
        exact own.symm.trans touch
    · exact own.symm.trans touch

/-- A message of which no row was there is stored for the first time. -/
theorem Landed.unstored {c : Config Forwards ForwardEvent} (landed : Landed owner sid c) {recipient messageId : String}
    (free : ∀ q, c.state.world.sent q recipient messageId = false) :
    c.log.filter (·.stores recipient messageId) = [] := by
  rw [List.filter_eq_nil_iff]
  intro e member matched
  cases e with
  | landed => cases matched
  | stored q r i =>
    obtain ⟨rfl, rfl⟩ : r = recipient ∧ i = messageId := by simpa [ForwardEvent.stores] using matched
    have sent := landed.sent q r i member
    rw [free q] at sent
    cases sent

/-- An event that lands with no later one landed that does the opposite to its room. -/
theorem Landed.lands {c : Config Forwards ForwardEvent} (landed : Landed owner sid c) {k : Nat} {event : ClientEvent}
    (found : c.state.events[k]? = some event)
    (inOrder : ∀ room b, event.touch owner room = some b → ∀ k' event', .landed k' event' ∈ c.log → k < k' →
      event'.touch owner room ≠ some (!b))
    {w : Forwards} (events : c.state.events <+: w.events)
    (held : ∀ room, room ∈ heldRooms (w.registry.find? sid) ↔
      (event.touch owner room).getD (decide (room ∈ heldRooms (c.state.registry.find? sid))) = true)
    (grows : Grows c.state.world w.world) (places : List Place) (recipient messageId : String)
    (stored : places = [] ∨ ∃ place, places = [place] ∧ w.world.sent place recipient messageId = true ∧
      ∀ q, c.state.world.sent q recipient messageId = false) :
    Landed owner sid
      ⟨w, c.log ++ .landed k event :: places.map (fun place => .stored place recipient messageId)⟩ := by
  have stores : ∀ e ∈ places.map (fun place => ForwardEvent.stored place recipient messageId),
      ∃ place r i, e = .stored place r i := by
    intro e member
    obtain ⟨place, -, rfl⟩ := List.mem_map.mp member
    exact ⟨place, recipient, messageId, rfl⟩
  have mem : ∀ {k' event'}, .landed k' event' ∈
      c.log ++ .landed k event :: places.map (fun place => .stored place recipient messageId) →
        .landed k' event' ∈ c.log ∨ (k' = k ∧ event' = event) := by
    intro k' event' member
    simpa using member
  refine ⟨?_, ?_, ?_, ?_, ?_⟩
  · intro k' event' member
    rcases mem member with old | ⟨rfl, rfl⟩
    · exact getElem?_of_isPrefix events (landed.known k' event' old)
    · exact getElem?_of_isPrefix events found
  · intro room
    rw [held, lastLanded_append owner room c.log k event stores]
    cases event.touch owner room with
    | none => simp [landed.held]
    | some b => simp
  · intro room k' event' b member touch latest
    rw [lastLanded_append owner room c.log k event stores]
    exact landed.last_or found (inOrder room) (mem member) touch (latest k event (by simp))
      (fun k₂ event₂ there touches => latest k₂ event₂ (List.mem_append_left _ there) touches)
  · intro place r i member
    rcases List.mem_append.mp member with old | new
    · exact sent_of_grows grows (landed.sent place r i old)
    · rcases stored with rfl | ⟨only, rfl, sent, -⟩
      · simp at new
      · simp only [List.map_cons, List.map_nil, List.mem_cons, reduceCtorEq, ForwardEvent.stored.injEq,
          List.not_mem_nil, or_false, false_or] at new
        obtain ⟨rfl, rfl, rfl⟩ := new
        exact sent
  · intro r i
    rw [List.filter_append, List.length_append]
    have before := landed.once r i
    rcases stored with rfl | ⟨only, rfl, -, free⟩
    · simpa [ForwardEvent.stores] using before
    · by_cases same : recipient = r ∧ messageId = i
      · obtain ⟨rfl, rfl⟩ := same
        rw [landed.unstored free]
        simp [ForwardEvent.stores]
      · have other : ¬ (recipient = r && messageId = i) = true := by simpa using same
        simpa [ForwardEvent.stores, other] using before

theorem handOver_frame (w : Forwards) (input : ForwardInput) :
    w.events <+: (handOver w input).events ∧ (handOver w input).registry = w.registry ∧
      (handOver w input).world = w.world := by
  cases input with
  | forward event =>
    simp only [handOver]
    split
    · exact ⟨List.prefix_append _ _, rfl, rfl⟩
    · exact ⟨List.prefix_rfl, rfl, rfl⟩
  | answered landing => exact ⟨List.prefix_rfl, rfl, rfl⟩
  | expired =>
    simp only [handOver]
    split <;> exact ⟨List.prefix_rfl, rfl, rfl⟩
  | late j landing => exact ⟨List.prefix_rfl, rfl, rfl⟩

/-- One landing of a room change, by what the change makes of the rooms. -/
theorem Landed.changesRoom {c : Config Forwards ForwardEvent} (landed : Landed owner sid c) {k : Nat}
    {event : ClientEvent} (found : c.state.events[k]? = some event)
    (inOrder : ∀ room b, event.touch owner room = some b → ∀ k' event', .landed k' event' ∈ c.log → k < k' →
      event'.touch owner room ≠ some (!b))
    {w : Forwards} (events : c.state.events <+: w.events) (registry : w.registry = c.state.registry)
    (world : w.world = c.state.world) {update : Registry → Calls → String → String → Nat → Registry} {b : Bool}
    {data : Value} (landing : Landing)
    (touch : ∀ room, event.touch owner room = if ownedRoom owner data = some room then some b else none)
    (updates : ∀ registry calls room nowMs held, completes sid calls = true →
      (held ∈ heldRooms ((update registry calls sid room nowMs).find? sid) ↔
        if held = room then b = true else held ∈ heldRooms (registry.find? sid)))
    (fails : ∀ registry calls room nowMs, completes sid calls = false →
      (update registry calls sid room nowMs).find? sid = registry.find? sid) :
    Landed owner sid ⟨{ w with registry := (changeRoom owner sid update w.registry landing data).1 },
      c.log ++ if (changeRoom owner sid update w.registry landing data).2 then [.landed k event] else []⟩ := by
  have grows : Grows c.state.world w.world := world ▸ Grows.refl _
  rw [registry]
  unfold changeRoom
  cases owned : ownedRoom owner data with
  | none =>
    refine landed.lands found inOrder ?_ (fun room => ?_) ?_ [] "" "" (.inl rfl)
    · exact events
    · simp [touch, owned]
    · exact grows
  | some room =>
    cases done : completes sid landing.calls with
    | false =>
      simp only [Bool.false_eq_true, if_false, List.append_nil]
      exact landed.quiet events (fails _ _ _ _ done) world
    | true =>
      refine landed.lands found inOrder ?_ (fun held => ?_) ?_ [] "" "" (.inl rfl)
      · exact events
      · rw [touch, owned]
        simp only [updates _ _ _ _ _ done, Option.some.injEq]
        by_cases same : held = room
        · simp [same]
        · simp [same, Ne.symm same]
      · exact grows

/-- One landing that is in order. -/
theorem Landed.dispatch {c : Config Forwards ForwardEvent} (landed : Landed owner sid c) {k : Nat}
    {event : ClientEvent} {landing : Landing} (found : c.state.events[k]? = some event)
    (inOrder : ∀ room b, event.touch owner room = some b → ∀ k' event', .landed k' event' ∈ c.log → k < k' →
      event'.touch owner room ≠ some (!b))
    (kept : sendApart path owner landing.weather c.state.world event = true) {w : Forwards}
    (events : c.state.events <+: w.events) (registry : w.registry = c.state.registry)
    (world : w.world = c.state.world) :
    Landed owner sid ⟨(dispatchSocketioEvent path owner sid w landing k event).1,
      c.log ++ (dispatchSocketioEvent path owner sid w landing k event).2⟩ := by
  cases event with
  | joinRoom data =>
    refine landed.changesRoom found inOrder events registry world landing (fun room => rfl) ?_ ?_
    · intro registry calls room nowMs held done
      rw [mem_heldRooms_joinRoom done]
      by_cases same : held = room <;> simp [same]
    · intro registry calls room nowMs undone
      exact find?_of_not_completes undone
  | leaveRoom data =>
    refine landed.changesRoom found inOrder events registry world landing (fun room => rfl) ?_ ?_
    · intro registry calls room nowMs held done
      rw [mem_heldRooms_leaveRoom done]
      by_cases same : held = room <;> simp [same]
    · intro registry calls room nowMs undone
      exact find?_of_not_completes undone
  | sendMessage room message payment =>
    have stored := storedAt_send kept
    simp only [dispatchSocketioEvent, world]
    refine landed.lands found inOrder ?_ ?_ ?_ _ _ _ stored
    · exact events
    · intro other
      simp [ClientEvent.touch, registry]
    · exact grows_processSendMessage

/-- One step that is in order. -/
theorem Landed.advance (c : Config Forwards ForwardEvent) (input : ForwardInput) (landed : Landed owner sid c)
    (inOrder : InOrder path owner c input) : Landed owner sid ((forwards path owner sid).advance c input) := by
  obtain ⟨events, registry, world⟩ := handOver_frame c.state input
  have quiet : Landed owner sid ⟨handOver c.state input, c.log ++ []⟩ := by
    rw [List.append_nil]
    exact landed.quiet events (by rw [registry]) world
  simp only [Machine.advance, forwards]
  cases lands : landingOf c.state input with
  | none => exact quiet
  | some pair =>
    obtain ⟨k, landing⟩ := pair
    dsimp only
    cases found : c.state.events[k]? with
    | none => exact quiet
    | some event =>
      obtain ⟨rooms, kept⟩ := inOrder k landing event lands found
      exact landed.dispatch found rooms kept events registry world

end

/-- Once every event has landed, the registry has the rooms as the client's order leaves them, and every message was
stored at most once, in every run whose steps are in order. -/
theorem forwards_keep_order (path : StorePath) (owner : Owner) (sid : String) (registry : Registry)
    (world : Send.World) (fresh : heldRooms (registry.find? sid) = []) (inputs : List ForwardInput)
    (inOrder : (forwards path owner sid).Guarded (InOrder path owner) ⟨⟨registry, world, [], none, []⟩, []⟩ inputs) :
    let c := (forwards path owner sid).run ⟨⟨registry, world, [], none, []⟩, []⟩ inputs
    ((∀ (k : Nat) (event : ClientEvent), c.state.events[k]? = some event → .landed k event ∈ c.log) →
      ∀ room, room ∈ heldRooms (c.state.registry.find? sid) ↔ lastTouch owner room c.state.events = some true) ∧
    ∀ recipient messageId, (c.log.filter (·.stores recipient messageId)).length ≤ 1 := by
  intro c
  have start : Landed owner sid ⟨⟨registry, world, [], none, []⟩, []⟩ :=
    ⟨by simp, by simp [fresh, lastLanded], by simp, by simp, by simp⟩
  have landed : Landed owner sid c := (forwards path owner sid).run_invariant Landed.advance start inOrder
  refine ⟨fun all room => ?_, landed.once⟩
  rw [landed.held]
  rcases lastTouch_cases room c.state.events with ⟨last, none⟩ | ⟨k, event, b, last, found, touch, latest⟩
  · rw [last, lastLanded_eq_none (fun k event member => none k event (landed.known k event member))]
  · rw [last, landed.last room k event b (all k event found) touch
      (fun k' event' member touches => latest k' event' (landed.known k' event' member) touches)]

def seatKey : String := String.ofList ('0' :: '2' :: List.replicate 64 'a')

def seatOwner : Owner := ⟨seatKey, by decide⟩

def gameRoom : String := seatKey ++ "-low_game_1"

def fairLanding : Landing := ⟨⟨true, true⟩, 1000, calm⟩

def seatMove : ClientEvent := .sendMessage gameRoom ⟨"m1", seatKey, .string "move"⟩ none

/-- The join and the message land once late and once in time, before anything else of the client's. -/
def landedInOrder : List ForwardInput :=
  [.forward (.joinRoom (.string gameRoom)), .expired, .late 0 fairLanding, .answered fairLanding,
    .forward seatMove, .expired, .answered fairLanding, .late 0 fairLanding]

def freshForwards : Config Forwards ForwardEvent := ⟨⟨Table.empty, World.empty, [], none, []⟩, []⟩

theorem inOrder_quiet {path : StorePath} {owner : Owner} {c : Config Forwards ForwardEvent} {input : ForwardInput}
    (none : landingOf c.state input = none) : InOrder path owner c input := by
  intro k landing event lands
  cases none.symm.trans lands

def ForwardEvent.upTo (k : Nat) : ForwardEvent → Bool
  | .landed k' _ => k' ≤ k
  | .stored .. => true

/-- A landing with no later event landed. -/
theorem inOrder_latest {path : StorePath} {owner : Owner} {c : Config Forwards ForwardEvent} {input : ForwardInput}
    {k : Nat} {landing : Landing} {event : ClientEvent} (lands : landingOf c.state input = some (k, landing))
    (found : c.state.events[k]? = some event) (latest : c.log.all (·.upTo k) = true)
    (kept : sendApart path owner landing.weather c.state.world event = true) : InOrder path owner c input := by
  intro k₂ landing₂ event₂ lands₂ found₂
  cases lands.symm.trans lands₂
  cases found.symm.trans found₂
  refine ⟨fun room b touch k' event' member later => ?_, kept⟩
  have upTo := List.all_eq_true.mp latest _ member
  simp only [ForwardEvent.upTo, decide_eq_true_eq] at upTo
  omega

theorem landed_in_order :
    let c := (forwards .mailbox seatOwner "s").run freshForwards landedInOrder
    (c.state.events.length = 2 ∧ gameRoom ∈ heldRooms (c.state.registry.find? "s")) ∧
      ∀ recipient messageId, (c.log.filter (·.stores recipient messageId)).length ≤ 1 := by
  have inOrder : (forwards .mailbox seatOwner "s").Guarded (InOrder .mailbox seatOwner) freshForwards
      landedInOrder := by
    refine ⟨inOrder_quiet rfl, inOrder_quiet rfl, inOrder_latest rfl rfl (by decide +kernel) rfl,
      inOrder_latest rfl rfl (by decide +kernel) rfl, inOrder_quiet rfl, inOrder_quiet rfl,
      inOrder_latest rfl rfl (by decide +kernel) (by decide +kernel),
      inOrder_latest rfl rfl (by decide +kernel) (by decide +kernel), trivial⟩
  have kept := forwards_keep_order .mailbox seatOwner "s" Table.empty World.empty rfl landedInOrder inOrder
  exact ⟨⟨by decide +kernel, by decide +kernel⟩, kept.2⟩

/-- The abandoned join lands after the leave. -/
def landedLate : List ForwardInput :=
  [.forward (.joinRoom (.string gameRoom)), .expired, .answered fairLanding, .forward (.leaveRoom (.string gameRoom)),
    .answered fairLanding, .late 0 fairLanding]

theorem late_join_stays :
    let c := (forwards .mailbox seatOwner "s").run freshForwards landedLate
    (∀ (k : Nat) (event : ClientEvent), c.state.events[k]? = some event → .landed k event ∈ c.log) ∧
      gameRoom ∈ heldRooms (c.state.registry.find? "s") ∧
      lastTouch seatOwner gameRoom c.state.events = some false := by
  have log : ((forwards .mailbox seatOwner "s").run freshForwards landedLate).log =
      [.landed 0 (.joinRoom (.string gameRoom)), .landed 1 (.leaveRoom (.string gameRoom)),
        .landed 0 (.joinRoom (.string gameRoom))] := by
    rfl
  have events : ((forwards .mailbox seatOwner "s").run freshForwards landedLate).state.events =
      [.joinRoom (.string gameRoom), .leaveRoom (.string gameRoom)] := by
    rfl
  refine ⟨?_, by decide +kernel, by decide +kernel⟩
  intro k event found
  rw [events] at found
  rw [log]
  match k with
  | 0 => cases found; simp
  | 1 => cases found; simp
  | k + 2 => simp at found

end MessageRelay.Presence
