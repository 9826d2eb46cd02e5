import MessageRelay.Library.History
import MessageRelay.Presence.Registry

/-! The registry under interleaved requests. A fan-out holds the entries it listed across its broadcasts and then
writes whole entries back, so a room change or an unregister made meanwhile is undone by a renewed lease. -/

namespace MessageRelay.Presence
open Library

/-- A hub's registry, and the lists its running fan-outs hold. -/
structure RegistryWorld where
  registry : Registry
  fanOuts : List Registry

/-- What happens to the registry. `list` is also the list of every other reader (`holds` is false there); a fan-out
begins with one that it holds and ends with `finish`. -/
inductive RegistryInput where
  | list (holds : Bool) (nowMs : Nat) (answered : Bool) (writes : String → Bool)
  | finish (fanOut : Nat) (turns : String → Turn)
  | join (sid room : String) (nowMs : Nat) (calls : Calls)
  | leave (sid room : String) (nowMs : Nat) (calls : Calls)
  | register (sid : String) (nowMs : Nat) (calls : Calls)
  | renew (sid : String) (nowMs : Nat) (calls : Calls)
  | unregister (sid : String) (calls : Calls)

/-- The completed operations, and the sessions that failed, were tombstoned or lapsed. -/
inductive RegistryEvent where
  | joined (sid room : String)
  | left (sid room : String)
  | registered (sid : String)
  | unregistered (sid : String)
  | dropped (sid : String)
  deriving DecidableEq, Repr

def RegistryEvent.sid : RegistryEvent → String
  | .joined sid _ | .left sid _ | .registered sid | .unregistered sid | .dropped sid => sid

/-- A room change completes where the sid is named, the read answers and the write takes. -/
def completes (sid : String) (calls : Calls) : Bool :=
  sid ≠ "" && calls.read && calls.write

def registryStep (w : RegistryWorld) : RegistryInput → RegistryWorld × List RegistryEvent
  | .list holds nowMs answered writes =>
    if answered then
      ({ registry := listWrites nowMs writes w.registry
         fanOuts := if holds then w.fanOuts ++ [listLive nowMs w.registry] else w.fanOuts },
        (listLapsed nowMs w.registry).map (fun e => .dropped e.sid))
    else (w, [])
  | .finish fanOut turns =>
    match w.fanOuts[fanOut]? with
    | none => (w, [])
    | some entries =>
      ({ registry := fanOutSocketio turns entries w.registry, fanOuts := w.fanOuts.eraseIdx fanOut },
        (entries.rows.filter (fun e => (turns e.sid).drops)).map (fun e => .dropped e.sid))
  | .join sid room nowMs calls =>
    ({ w with registry := joinRoom w.registry calls sid room nowMs },
      if completes sid calls then [.joined sid room] else [])
  | .leave sid room nowMs calls =>
    ({ w with registry := leaveRoom w.registry calls sid room nowMs },
      if completes sid calls then [.left sid room] else [])
  | .register sid nowMs calls =>
    ({ w with registry := handleSocketioRegister w.registry calls sid nowMs },
      if sid ≠ "" && calls.write then [.registered sid] else [])
  | .renew sid nowMs calls => ({ w with registry := renewLease w.registry calls sid nowMs }, [])
  | .unregister sid calls =>
    ({ w with registry := handleSocketioUnregister w.registry calls sid },
      if calls.write then [.unregistered sid] else [])

def registryMachine : Machine RegistryWorld RegistryInput RegistryEvent := ⟨registryStep⟩

abbrev RegistryConfig := Config RegistryWorld RegistryEvent

def registryStart : RegistryConfig := ⟨⟨Table.empty, []⟩, []⟩

/-! What the log says a sid's entry should hold. -/

def afterRoom (sid room : String) (last : Bool) : RegistryEvent → Bool
  | .joined s r => if s = sid ∧ r = room then true else last
  | .left s r => if s = sid ∧ r = room then false else last
  | _ => last

/-- The last completed operation on the room is a join. -/
def lastIsJoin (log : List RegistryEvent) (sid room : String) : Bool :=
  log.foldl (afterRoom sid room) false

def afterDeparture (sid : String) (gone : Bool) : RegistryEvent → Bool
  | .unregistered s => if s = sid then true else gone
  | .joined s _ | .registered s => if s = sid then false else gone
  | _ => gone

/-- The sid was unregistered, and has neither joined nor registered since. -/
def departed (log : List RegistryEvent) (sid : String) : Bool :=
  log.foldl (afterDeparture sid) false

/-- The sid was never unregistered, and never failed, was tombstoned or lapsed. -/
def intact (log : List RegistryEvent) (sid : String) : Bool :=
  log.all (fun e => e ≠ .unregistered sid && e ≠ .dropped sid)

def heldRooms (stored : Option SocketIoRegistryEntry) : List String :=
  (stored.map SocketIoRegistryEntry.joinedRooms).getD []

/-- The registry has kept a sid's updates. -/
def Kept (log : List RegistryEvent) (stored : Option SocketIoRegistryEntry) (sid : String) : Prop :=
  (intact log sid = true → ∀ room, room ∈ heldRooms stored ↔ lastIsJoin log sid room = true) ∧
    (departed log sid = true → stored = none)

def NoUpdateLost (c : RegistryConfig) : Prop :=
  ∀ sid, Kept c.log (c.state.registry.find? sid) sid

/-- The condition on one step. A fan-out that renews a lease finds a sid that is not unregistered and rooms as it
listed them; a leave comes from a sid that is not unregistered; and a register whose read fails comes from a sid that
holds no room. -/
def Careful (c : RegistryConfig) : RegistryInput → Prop
  | .finish fanOut turns =>
    ∀ entries, c.state.fanOuts[fanOut]? = some entries → ∀ entry ∈ entries.rows,
      (turns entry.sid).write = true → (turns entry.sid).renews entry = true →
        departed c.log entry.sid = false ∧
          (intact c.log entry.sid = true → ∀ room,
            room ∈ entry.joinedRooms ↔ room ∈ heldRooms (c.state.registry.find? entry.sid))
  | .leave sid _ _ calls => completes sid calls = true → departed c.log sid = false
  | .register sid _ calls =>
    sid ≠ "" → calls.write = true → calls.read = false → intact c.log sid = true →
      heldRooms (c.state.registry.find? sid) = []
  | _ => True

/-! Events of other sids. -/

section Quiet
variable {log new : List RegistryEvent} {sid : String}

theorem lastIsJoin_quiet (quiet : ∀ e ∈ new, e.sid ≠ sid) (room : String) :
    lastIsJoin (log ++ new) sid room = lastIsJoin log sid room := by
  refine foldl_append_idle (fun e member last => ?_)
  have other := quiet e member
  cases e <;> simp only [afterRoom, RegistryEvent.sid] at other ⊢ <;> simp [other]

theorem departed_quiet (quiet : ∀ e ∈ new, e.sid ≠ sid) : departed (log ++ new) sid = departed log sid := by
  refine foldl_append_idle (fun e member gone => ?_)
  have other := quiet e member
  cases e <;> simp only [afterDeparture, RegistryEvent.sid] at other ⊢ <;> simp [other]

theorem intact_append : intact (log ++ new) sid = (intact log sid && intact new sid) := by
  simp [intact]

theorem intact_of_quiet (quiet : ∀ e ∈ new, e.sid ≠ sid) : intact new sid = true := by
  simp only [intact, List.all_eq_true, Bool.and_eq_true, decide_eq_true_eq]
  intro e member
  constructor <;> rintro rfl <;> exact quiet _ member rfl

/-- An entry whose rooms and whose being there are as before, after events of other sids. -/
theorem kept_quiet (quiet : ∀ e ∈ new, e.sid ≠ sid) {stored stored' : Option SocketIoRegistryEntry}
    (rooms : heldRooms stored' = heldRooms stored) (there : stored' = none ↔ stored = none) :
    Kept (log ++ new) stored' sid ↔ Kept log stored sid := by
  unfold Kept
  rw [departed_quiet quiet, intact_append, intact_of_quiet quiet, Bool.and_true, rooms, there]
  simp only [lastIsJoin_quiet quiet]

end Quiet

theorem dropped_quiet {entries : List SocketIoRegistryEntry} {sid : String} (other : ∀ e ∈ entries, e.sid ≠ sid) :
    ∀ e ∈ entries.map (fun e => RegistryEvent.dropped e.sid), e.sid ≠ sid := by
  intro e member
  obtain ⟨entry, inside, rfl⟩ := List.mem_map.mp member
  exact other entry inside

theorem departed_dropped (log : List RegistryEvent) (entries : List SocketIoRegistryEntry) (sid : String) :
    departed (log ++ entries.map (fun e => .dropped e.sid)) sid = departed log sid := by
  unfold departed
  rw [List.foldl_append]
  induction entries with
  | nil => rfl
  | cons entry rest ih => exact ih

/-- A sid that is dropped has no more rooms to answer for. -/
theorem kept_dropped {log : List RegistryEvent} {entries : List SocketIoRegistryEntry} {entry : SocketIoRegistryEntry}
    (member : entry ∈ entries) {stored : Option SocketIoRegistryEntry}
    (absent : departed log entry.sid = true → stored = none) :
    Kept (log ++ entries.map (fun e => .dropped e.sid)) stored entry.sid := by
  refine ⟨fun whole => ?_, fun gone => absent (by rwa [departed_dropped] at gone)⟩
  rw [intact_append, Bool.and_eq_true] at whole
  have all := List.all_eq_true.mp whole.2 (.dropped entry.sid) (List.mem_map.mpr ⟨entry, member, rfl⟩)
  simp at all

/-! One event of the sid itself. -/

theorem kept_joined (log : List RegistryEvent) (sid room : String) (stored' : SocketIoRegistryEntry)
    (stored : Option SocketIoRegistryEntry) (kept : Kept log stored sid)
    (rooms : ∀ held, held ∈ stored'.joinedRooms ↔ held = room ∨ held ∈ heldRooms stored) :
    Kept (log ++ [.joined sid room]) (some stored') sid := by
  refine ⟨fun whole held => ?_, fun gone => ?_⟩
  · rw [intact_append, Bool.and_eq_true] at whole
    have before := kept.1 whole.1 held
    show held ∈ stored'.joinedRooms ↔ _
    rw [rooms, before]
    unfold lastIsJoin
    rw [List.foldl_append]
    by_cases same : room = held
    · simp [afterRoom, same]
    · simp [afterRoom, same, Ne.symm same]
  · simp [departed, List.foldl_append, afterDeparture] at gone

theorem kept_left (log : List RegistryEvent) (sid room : String) (stored' : SocketIoRegistryEntry)
    (stored : Option SocketIoRegistryEntry) (kept : Kept log stored sid)
    (rooms : ∀ held, held ∈ stored'.joinedRooms ↔ held ∈ heldRooms stored ∧ held ≠ room) :
    Kept (log ++ [.left sid room]) (some stored') sid ↔ departed log sid = false := by
  have same : departed (log ++ [.left sid room]) sid = departed log sid := by
    simp [departed, List.foldl_append, afterDeparture]
  constructor
  · intro after
    by_contra gone
    have absent := after.2 (by rw [same]; simpa using gone)
    cases absent
  · intro present
    refine ⟨fun whole held => ?_, fun gone => ?_⟩
    · rw [intact_append, Bool.and_eq_true] at whole
      have before := kept.1 whole.1 held
      show held ∈ stored'.joinedRooms ↔ _
      rw [rooms, before]
      unfold lastIsJoin
      rw [List.foldl_append]
      by_cases left : room = held
      · simp [afterRoom, left]
      · simp [afterRoom, left, Ne.symm left]
    · rw [same, present] at gone
      cases gone

theorem kept_registered (log : List RegistryEvent) (sid : String) (stored' : SocketIoRegistryEntry)
    (stored : Option SocketIoRegistryEntry) (kept : Kept log stored sid) :
    Kept (log ++ [.registered sid]) (some stored') sid ↔
      (intact log sid = true → ∀ room, room ∈ stored'.joinedRooms ↔ room ∈ heldRooms stored) := by
  have still : intact (log ++ [.registered sid]) sid = intact log sid := by
    simp [intact]
  have rooms (room : String) : lastIsJoin (log ++ [.registered sid]) sid room = lastIsJoin log sid room := by
    simp [lastIsJoin, List.foldl_append, afterRoom]
  have here : departed (log ++ [.registered sid]) sid = false := by
    simp [departed, List.foldl_append, afterDeparture]
  unfold Kept
  simp only [still, rooms, here, Bool.false_eq_true, false_implies, and_true]
  constructor
  · intro after whole room
    rw [kept.1 whole room]
    exact after whole room
  · intro same whole room
    rw [← kept.1 whole room]
    exact same whole room

theorem kept_unregistered (log : List RegistryEvent) (sid : String) : Kept (log ++ [.unregistered sid]) none sid := by
  refine ⟨fun whole => ?_, fun _ => rfl⟩
  simp [intact] at whole

/-! The operations, one by one. -/

section Steps
variable {c : RegistryConfig} (kept : NoUpdateLost c)
include kept

/-- A step that touches one sid is judged by that sid. -/
theorem noUpdateLost_iff_kept {c' : RegistryConfig} (sid : String) (new : List RegistryEvent)
    (log : c'.log = c.log ++ new) (own : ∀ e ∈ new, e.sid = sid)
    (others : ∀ other, other ≠ sid → c'.state.registry.find? other = c.state.registry.find? other) :
    NoUpdateLost c' ↔ Kept (c.log ++ new) (c'.state.registry.find? sid) sid := by
  constructor
  · intro after
    rw [← log]
    exact after sid
  · intro after other
    rw [log]
    by_cases same : other = sid
    · rw [same]
      exact after
    · rw [others other same]
      exact (kept_quiet (fun e member => by rw [own e member]; exact Ne.symm same) rfl Iff.rfl).mpr (kept other)

/-- A step that leaves every entry's rooms alone and completes nothing. -/
theorem noUpdateLost_of_rooms {c' : RegistryConfig} (log : c'.log = c.log)
    (rooms : ∀ sid, heldRooms (c'.state.registry.find? sid) = heldRooms (c.state.registry.find? sid))
    (there : ∀ sid, c'.state.registry.find? sid = none ↔ c.state.registry.find? sid = none) : NoUpdateLost c' := by
  intro sid
  have same : Kept (c.log ++ []) (c'.state.registry.find? sid) sid ↔ Kept c.log (c.state.registry.find? sid) sid :=
    kept_quiet (by simp) (rooms sid) (there sid)
  rw [List.append_nil] at same
  rw [log]
  exact same.mpr (kept sid)

theorem kept_join (sid room : String) (nowMs : Nat) (calls : Calls) :
    NoUpdateLost (registryMachine.advance c (.join sid room nowMs calls)) := by
  have found (other : String) := find?_updateSocketioRooms (fun base record => recordJoin base record room)
    c.state.registry calls sid nowMs other
  cases done : completes sid calls with
  | false =>
    have partly : ¬(sid ≠ "" ∧ calls.read = true ∧ calls.write = true) := by
      simpa [completes, and_assoc] using done
    refine noUpdateLost_of_rooms kept (by simp [Machine.advance, registryMachine, registryStep, done]) ?_ ?_ <;>
      intro other <;>
      simp [Machine.advance, registryMachine, registryStep, joinRoom, found, partly]
  | true =>
    have all : sid ≠ "" ∧ calls.read = true ∧ calls.write = true := by
      simpa [completes, and_assoc] using done
    refine (noUpdateLost_iff_kept kept sid [.joined sid room] ?_ ?_ ?_).mpr ?_
    · simp [Machine.advance, registryMachine, registryStep, done]
    · simp [RegistryEvent.sid]
    · intro other apart
      show (joinRoom c.state.registry calls sid room nowMs).find? other = _
      rw [joinRoom, found, if_neg (fun both => apart both.2.symm)]
    · show Kept _ ((joinRoom c.state.registry calls sid room nowMs).find? sid) sid
      rw [joinRoom, found, if_pos ⟨all, rfl⟩]
      refine kept_joined _ _ _ _ _ (kept sid) (fun held => ?_)
      cases stored : c.state.registry.find? sid <;>
        simp [changed, stored, heldRooms, SocketIoRegistryEntry.setRooms, mem_recordJoin, SocketIoRegistryEntry.rooms,
          freshSocketioEntry]

theorem kept_leave_iff (sid room : String) (nowMs : Nat) (calls : Calls) :
    NoUpdateLost (registryMachine.advance c (.leave sid room nowMs calls)) ↔
      Careful c (.leave sid room nowMs calls) := by
  have found (other : String) := find?_updateSocketioRooms (fun base record => recordLeave base record room)
    c.state.registry calls sid nowMs other
  cases done : completes sid calls with
  | false =>
    have partly : ¬(sid ≠ "" ∧ calls.read = true ∧ calls.write = true) := by
      simpa [completes, and_assoc] using done
    refine iff_of_true ?_ (fun whole => by simp [done] at whole)
    refine noUpdateLost_of_rooms kept (by simp [Machine.advance, registryMachine, registryStep, done]) ?_ ?_ <;>
      intro other <;>
      simp [Machine.advance, registryMachine, registryStep, leaveRoom, found, partly]
  | true =>
    have all : sid ≠ "" ∧ calls.read = true ∧ calls.write = true := by
      simpa [completes, and_assoc] using done
    have careful : Careful c (.leave sid room nowMs calls) ↔ departed c.log sid = false := by
      simp [Careful, done]
    rw [careful, noUpdateLost_iff_kept kept sid [.left sid room]]
    · show Kept _ ((leaveRoom c.state.registry calls sid room nowMs).find? sid) sid ↔ _
      rw [leaveRoom, found, if_pos ⟨all, rfl⟩]
      refine kept_left _ _ _ _ _ (kept sid) (fun held => ?_)
      cases stored : c.state.registry.find? sid <;>
        simp [changed, stored, heldRooms, SocketIoRegistryEntry.setRooms, mem_recordLeave, SocketIoRegistryEntry.rooms,
          freshSocketioEntry]
    · simp [Machine.advance, registryMachine, registryStep, done]
    · simp [RegistryEvent.sid]
    · intro other apart
      show (leaveRoom c.state.registry calls sid room nowMs).find? other = _
      rw [leaveRoom, found, if_neg (fun both => apart both.2.symm)]

theorem kept_register_iff (sid : String) (nowMs : Nat) (calls : Calls) :
    NoUpdateLost (registryMachine.advance c (.register sid nowMs calls)) ↔
      Careful c (.register sid nowMs calls) := by
  have found (other : String) := find?_handleSocketioRegister c.state.registry calls sid nowMs other
  by_cases done : sid ≠ "" ∧ calls.write = true
  · have new : (registryMachine.advance c (.register sid nowMs calls)).log = c.log ++ [.registered sid] := by
      simp [Machine.advance, registryMachine, registryStep, done.1, done.2]
    have others (other : String) (apart : other ≠ sid) :
        (registryMachine.advance c (.register sid nowMs calls)).state.registry.find? other =
          c.state.registry.find? other := by
      show (handleSocketioRegister c.state.registry calls sid nowMs).find? other = _
      rw [found, if_neg (fun both => apart both.2.symm)]
    rw [noUpdateLost_iff_kept kept sid [.registered sid] new (by simp [RegistryEvent.sid]) others]
    show Kept _ ((handleSocketioRegister c.state.registry calls sid nowMs).find? sid) sid ↔ _
    rw [found, if_pos ⟨done, rfl⟩, kept_registered _ _ _ _ (kept sid)]
    unfold Careful
    cases answered : calls.read with
    | true =>
      refine iff_of_true (fun _ room => ?_) (fun _ _ failed => by rw [answered] at failed; cases failed)
      simp [registered, Registry.get, answered, heldRooms]
    | false =>
      simp only [registered, Registry.get, answered, true_implies]
      constructor
      · intro same _ _ whole
        refine List.eq_nil_iff_forall_not_mem.mpr (fun room held => ?_)
        have absent := (same whole room).mpr held
        simp at absent
      · intro none whole room
        rw [none done.1 done.2 whole]
        simp
  · refine iff_of_true ?_ (fun named write => absurd ⟨named, write⟩ done)
    refine noUpdateLost_of_rooms kept ?_ ?_ ?_
    · have quiet : (decide (sid ≠ "") && calls.write) = false := by
        rw [Bool.eq_false_iff]
        intro both
        exact done (by simpa using both)
      simp only [Machine.advance, registryMachine, registryStep, quiet]
      simp
    · intro other
      show heldRooms ((handleSocketioRegister c.state.registry calls sid nowMs).find? other) = _
      rw [found, if_neg (fun both => done both.1)]
    · intro other
      show (handleSocketioRegister c.state.registry calls sid nowMs).find? other = none ↔ _
      rw [found, if_neg (fun both => done both.1)]

theorem kept_renew (sid : String) (nowMs : Nat) (calls : Calls) :
    NoUpdateLost (registryMachine.advance c (.renew sid nowMs calls)) := by
  refine noUpdateLost_of_rooms kept (by simp [Machine.advance, registryMachine, registryStep]) ?_ ?_ <;>
    intro other <;>
    obtain ⟨lease, same⟩ := find?_renewLease c.state.registry calls sid nowMs other <;>
    simp [Machine.advance, registryMachine, registryStep, same, heldRooms, Option.map_map, Function.comp_def]

theorem kept_unregister (sid : String) (calls : Calls) :
    NoUpdateLost (registryMachine.advance c (.unregister sid calls)) := by
  have found (other : String) := find?_handleSocketioUnregister c.state.registry calls sid other
  cases wrote : calls.write with
  | false =>
    refine noUpdateLost_of_rooms kept (by simp [Machine.advance, registryMachine, registryStep, wrote]) ?_ ?_ <;>
      intro other <;>
      simp [Machine.advance, registryMachine, registryStep, found, wrote]
  | true =>
    refine (noUpdateLost_iff_kept kept sid [.unregistered sid] ?_ ?_ ?_).mpr ?_
    · simp [Machine.advance, registryMachine, registryStep, wrote]
    · simp [RegistryEvent.sid]
    · intro other apart
      show (handleSocketioUnregister c.state.registry calls sid).find? other = _
      rw [found, if_neg (fun both => apart both.2.symm)]
    · show Kept _ ((handleSocketioUnregister c.state.registry calls sid).find? sid) sid
      rw [found, if_pos ⟨wrote, rfl⟩]
      exact kept_unregistered _ _

/-- The list drops what lapsed, and is a frame for the rest. -/
theorem kept_list (holds : Bool) (nowMs : Nat) (answered : Bool) (writes : String → Bool) :
    NoUpdateLost (registryMachine.advance c (.list holds nowMs answered writes)) := by
  cases answered with
  | false =>
    refine noUpdateLost_of_rooms kept ?_ ?_ ?_ <;> simp [Machine.advance, registryMachine, registryStep]
  | true =>
    intro sid
    show Kept (c.log ++ (listLapsed nowMs c.state.registry).map (fun e => .dropped e.sid))
      ((listWrites nowMs writes c.state.registry).find? sid) sid
    rw [find?_listWrites]
    cases found : c.state.registry.find? sid with
    | none =>
      have absent := (c.state.registry.find?_eq_none sid).mp found
      have quiet : ∀ e ∈ (listLapsed nowMs c.state.registry).map (fun e => RegistryEvent.dropped e.sid),
          e.sid ≠ sid := dropped_quiet (fun e member => absent e (List.mem_of_mem_filter member))
      refine (kept_quiet quiet rfl Iff.rfl).mpr ?_
      rw [Option.bind_none, ← found]
      exact kept sid
    | some entry =>
      obtain ⟨member, named⟩ := (c.state.registry.find?_eq_some sid entry).mp found
      cases lapsed : expired nowMs entry with
      | true =>
        subst named
        refine kept_dropped (List.mem_filter.mpr ⟨member, lapsed⟩) (fun gone => ?_)
        have absent := (kept entry.sid).2 gone
        rw [found] at absent
        cases absent
      | false =>
        have quiet : ∀ e ∈ (listLapsed nowMs c.state.registry).map (fun e => RegistryEvent.dropped e.sid),
            e.sid ≠ sid := by
          refine dropped_quiet (fun e inside same => ?_)
          obtain ⟨row, gone⟩ := List.mem_filter.mp inside
          have equal := (c.state.registry.find?_eq_some sid e).mpr ⟨row, same⟩
          rw [found, Option.some.injEq] at equal
          rw [← equal, lapsed] at gone
          cases gone
        refine (kept_quiet quiet ?_ ?_).mpr (found ▸ kept sid)
        · cases wrote : writes sid <;> simp [lapsed, heldRooms, stampLease_joinedRooms]
        · simp [lapsed]

/-- The write-back of a fan-out keeps the updates exactly where it is careful. -/
theorem kept_finish_iff (fanOut : Nat) (turns : String → Turn) :
    NoUpdateLost (registryMachine.advance c (.finish fanOut turns)) ↔ Careful c (.finish fanOut turns) := by
  cases held : c.state.fanOuts[fanOut]? with
  | none =>
    refine iff_of_true ?_ (fun entries some => by rw [held] at some; cases some)
    refine noUpdateLost_of_rooms kept ?_ ?_ ?_ <;> simp [Machine.advance, registryMachine, registryStep, held]
  | some entries =>
    let drops := entries.rows.filter (fun e => (turns e.sid).drops)
    have log : (registryMachine.advance c (.finish fanOut turns)).log =
        c.log ++ drops.map (fun e => .dropped e.sid) := by
      simp [Machine.advance, registryMachine, registryStep, held, drops]
    have stored (sid : String) : (registryMachine.advance c (.finish fanOut turns)).state.registry.find? sid =
        (entries.find? sid).elim (c.state.registry.find? sid)
          (fun entry => turned (turns sid) entry (c.state.registry.find? sid)) := by
      rw [← find?_fanOutSocketio]
      simp [Machine.advance, registryMachine, registryStep, held]
    have careful : Careful c (.finish fanOut turns) ↔ ∀ entry ∈ entries.rows,
        (turns entry.sid).write = true → (turns entry.sid).renews entry = true →
          departed c.log entry.sid = false ∧ (intact c.log entry.sid = true → ∀ room,
            room ∈ entry.joinedRooms ↔ room ∈ heldRooms (c.state.registry.find? entry.sid)) := by
      simp [Careful, held]
    have quiet (sid : String) (not : ∀ entry, entries.find? sid = some entry → (turns sid).drops = false) :
        ∀ e ∈ drops.map (fun e => RegistryEvent.dropped e.sid), e.sid ≠ sid := by
      refine dropped_quiet (fun e inside same => ?_)
      obtain ⟨row, gone⟩ := List.mem_filter.mp inside
      rw [same, not e ((entries.find?_eq_some sid e).mpr ⟨row, same⟩)] at gone
      cases gone
    rw [careful]
    constructor
    · intro after entry member write renews
      have found := (entries.find?_eq_some entry.sid entry).mpr ⟨member, rfl⟩
      have keeps := Turn.not_drops_of_renews renews
      have now := after entry.sid
      rw [log, stored, found, Option.elim_some, turned_of_renews write renews] at now
      simp only [Kept, departed_dropped] at now
      refine ⟨?_, fun whole room => ?_⟩
      · by_contra gone
        have absent := now.2 (by simpa using gone)
        cases absent
      · have silent := quiet entry.sid (fun _ _ => keeps)
        rw [intact_append, intact_of_quiet silent, Bool.and_true] at now
        have listed := now.1 whole room
        rw [lastIsJoin_quiet silent] at listed
        rw [(kept entry.sid).1 whole room]
        exact listed
    · intro all sid
      rw [log, stored]
      cases found : entries.find? sid with
      | none => exact (kept_quiet (quiet sid (fun e some => by rw [found] at some; cases some)) rfl Iff.rfl).mpr (kept sid)
      | some entry =>
        obtain ⟨member, named⟩ := (entries.find?_eq_some sid entry).mp found
        subst named
        rw [Option.elim_some]
        cases dropping : (turns entry.sid).drops with
        | true =>
          refine kept_dropped (List.mem_filter.mpr ⟨member, dropping⟩) (fun gone => ?_)
          rw [(kept entry.sid).2 gone, turned_of_drops dropping]
        | false =>
          have silent := quiet entry.sid (fun _ _ => dropping)
          by_cases put : (turns entry.sid).write = true ∧ (turns entry.sid).renews entry = true
          · obtain ⟨present, rooms⟩ := all entry member put.1 put.2
            rw [turned_of_renews put.1 put.2]
            refine ⟨fun whole room => ?_, fun gone => ?_⟩
            · rw [intact_append, Bool.and_eq_true] at whole
              rw [lastIsJoin_quiet silent, ← (kept entry.sid).1 whole.1 room, ← rooms whole.1 room]
              rfl
            · rw [departed_dropped, present] at gone
              cases gone
          · rw [turned_of_idle dropping put]
            exact (kept_quiet silent rfl Iff.rfl).mpr (kept entry.sid)

end Steps

/-- One step loses no update exactly where it is careful. -/
theorem noUpdateLost_advance {c : RegistryConfig} (input : RegistryInput) (kept : NoUpdateLost c) :
    NoUpdateLost (registryMachine.advance c input) ↔ Careful c input := by
  cases input with
  | list holds nowMs answered writes => exact iff_of_true (kept_list kept holds nowMs answered writes) trivial
  | finish fanOut turns => exact kept_finish_iff kept fanOut turns
  | join sid room nowMs calls => exact iff_of_true (kept_join kept sid room nowMs calls) trivial
  | leave sid room nowMs calls => exact kept_leave_iff kept sid room nowMs calls
  | register sid nowMs calls => exact kept_register_iff kept sid nowMs calls
  | renew sid nowMs calls => exact iff_of_true (kept_renew kept sid nowMs calls) trivial
  | unregister sid calls => exact iff_of_true (kept_unregister kept sid calls) trivial

theorem noUpdateLost_start : NoUpdateLost registryStart := by
  intro sid
  simp [Kept, registryStart, heldRooms, lastIsJoin, departed]

/-- A run's steps are all careful exactly when no state it reaches has lost an update. -/
theorem registry_loses_no_update (inputs : List RegistryInput) :
    registryMachine.Guarded Careful registryStart inputs ↔
      ∀ front, front <+: inputs → NoUpdateLost (registryMachine.run registryStart front) :=
  registryMachine.guarded_iff_forall_prefix (fun _ input kept => noUpdateLost_advance input kept)
    noUpdateLost_start inputs

def took : Calls := ⟨true, true⟩

/-- A session joins a room; a fan-out lists it; the session unregisters; the session's answer, 150 seconds after its
last renewal, brings its entry back. Then the same with a second room joined meanwhile, which is lost. -/
def unregisteredDuringFanOut : List RegistryInput :=
  [.join "s" "room" 0 took, .list true 150001 true (fun _ => true), .unregister "s" took,
    .finish 0 (fun _ => ⟨.answered ⟨200, some 1, none⟩, 150001, 150001, true⟩)]

def joinedDuringFanOut : List RegistryInput :=
  [.join "s" "room" 0 took, .list true 150001 true (fun _ => true), .join "s" "other" 150001 took,
    .finish 0 (fun _ => ⟨.answered ⟨200, some 1, none⟩, 150001, 150001, true⟩)]

/-- Both runs end with no fan-out running. One leaves an entry of an unregistered sid, the other has lost a join. -/
theorem stale_entry_written_back :
    ((registryMachine.run registryStart unregisteredDuringFanOut).state.fanOuts = [] ∧
      ¬NoUpdateLost (registryMachine.run registryStart unregisteredDuringFanOut)) ∧
    ((registryMachine.run registryStart joinedDuringFanOut).state.fanOuts = [] ∧
      ¬NoUpdateLost (registryMachine.run registryStart joinedDuringFanOut)) := by
  have gone : departed (registryMachine.run registryStart unregisteredDuringFanOut).log "s" = true ∧
      (registryMachine.run registryStart unregisteredDuringFanOut).state.registry.find? "s" ≠ none := by
    decide +kernel
  have lost : intact (registryMachine.run registryStart joinedDuringFanOut).log "s" = true ∧
      lastIsJoin (registryMachine.run registryStart joinedDuringFanOut).log "s" "other" = true ∧
      "other" ∉ heldRooms ((registryMachine.run registryStart joinedDuringFanOut).state.registry.find? "s") := by
    decide +kernel
  refine ⟨⟨by decide +kernel, fun kept => ?_⟩, by decide +kernel, fun kept => ?_⟩
  · exact gone.2 ((kept "s").2 gone.1)
  · exact lost.2.2 (((kept "s").1 lost.1 "other").mpr lost.2.1)

end MessageRelay.Presence
