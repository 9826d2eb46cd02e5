import MessageRelay.Relay.SettlingHub
import MessageRelay.Relay.SettlingDatabase

/-! The monitor of one id beside one hub's run: what the state has to show for what the monitor
knows. An answered acknowledgment means a quiet id, and a listing begun since has read nothing under
it but from D1. -/

namespace MessageRelay.Relay
open MessageRelay.Library MessageRelay.Mailbox MessageRelay.Archive MessageRelay.Database

/-- The input is about this recipient's hub, or a step of a request or a pass already begun. -/
def WorldInput.concerns (recipient : String) : WorldInput → Prop
  | .hub (.insert r ..) => r = recipient
  | .hub (.acknowledge r ..) => r = recipient
  | .hub (.replay r _) => r = recipient
  | .paid r .. => r = recipient
  | .ackBegin _ r .. => r = recipient
  | .listBegin _ r _ => r = recipient
  | _ => True

/-- Every row read from D1 that the archive acknowledged by now is still held by the mailbox. -/
def Listing.InTime (w : Hubs) : Listing → Prop
  | .d1Read recipient d1 _ => ∀ id ∈ d1.filterMap MessageDbRow.messageId, Sealed w.db recipient id →
      (w.mailboxes recipient).find? id ≠ none
  | _ => True

/-- The condition on one step of one hub's run: a listing that takes its last read is in time, and an
acknowledgment's D1 part meets no row the archive acknowledged since it asked. -/
def InTime (recipient : String) (c : WorldConfig) (input : WorldInput) : Prop :=
  input.concerns recipient ∧
    match input with
    | .ackWrite t _ _ => (c.state.acks t).Current c.state.hubs.db
    | .listFinish l => (c.state.listings l).InTime c.state.hubs
    | _ => True

instance (recipient : String) (input : WorldInput) : Decidable (input.concerns recipient) :=
  match input with
  | .hub (.insert r ..) | .hub (.acknowledge r ..) | .hub (.replay r _) => inferInstanceAs (Decidable (r = recipient))
  | .paid r .. | .ackBegin _ r .. | .listBegin _ r _ => inferInstanceAs (Decidable (r = recipient))
  | .hub (.deliver ..) | .hub (.readBodies ..) | .hub (.plan ..) | .hub (.write ..) | .hub (.tell ..)
  | .hub (.abandon ..) | .ackLive .. | .ackWrite .. | .listBox .. | .listD1 .. | .listFinish .. | .ackFail ..
  | .listFail .. => .isTrue trivial

instance (w : Hubs) (listing : Listing) : Decidable (listing.InTime w) :=
  match listing with
  | .d1Read recipient d1 _ => inferInstanceAs (Decidable (∀ id ∈ d1.filterMap MessageDbRow.messageId,
      Sealed w.db recipient id → (w.mailboxes recipient).find? id ≠ none))
  | .idle | .mailboxRead .. | .boxFound .. => .isTrue trivial

instance (recipient : String) (c : WorldConfig) (input : WorldInput) : Decidable (InTime recipient c input) :=
  match input with
  | .ackWrite t _ _ => inferInstanceAs (Decidable (_ ∧ (c.state.acks t).Current c.state.hubs.db))
  | .listFinish l => inferInstanceAs (Decidable (_ ∧ (c.state.listings l).InTime c.state.hubs))
  | .hub .. | .paid .. | .ackBegin .. | .ackLive .. | .listBegin .. | .listBox .. | .listD1 .. | .ackFail ..
  | .listFail .. => inferInstanceAs (Decidable (_ ∧ True))

/-! The invariant. -/

def AckTask.Of (recipient : String) : AckTask → Prop
  | .idle => True
  | .missing r _ => r = recipient
  | .live r _ => r = recipient

/-- The acknowledgment has yet to ask D1 for the id, or to write it there. -/
def AckTask.Waits (id : String) : AckTask → Prop
  | .idle => True
  | .missing _ ids => id ∈ ids
  | .live _ ids => id ∈ ids

def Listing.Of (recipient : String) : Listing → Prop
  | .idle => True
  | .mailboxRead r _ _ => r = recipient
  | .boxFound r _ _ => r = recipient
  | .d1Read r _ _ => r = recipient

/-- The listing has the id from D1 alone, and then it was handed over by now. -/
def Listing.Clear (recipient id : String) (w : Hubs) : Listing → Prop
  | .idle => True
  | .mailboxRead _ _ rows => lists rows id = false
  | .boxFound _ _ rows => lists rows id = false
  | .d1Read _ d1 rows => lists rows id = false ∧
      (lists d1 id = true → Enqueued w recipient id ∧ ¬ Foreign w.db recipient id)

/-- No live row is under the id in the mailbox. -/
def Dead (recipient id : String) (w : Hubs) : Prop :=
  ∀ r, (w.mailboxes recipient).find? id = some r → r.state ≠ .live

structure Watched (recipient id : String) (w : World) (s : Watch) : Prop where
  acking : ∀ t, s.acking t = true → Dead recipient id w.hubs ∧ (Quiet recipient id w.hubs ∨ (w.acks t).Waits id)
  acked : s.acked = true → Quiet recipient id w.hubs
  begun : ∀ l, s.begun l = true → s.acked = true ∧ (w.listings l).Clear recipient id w.hubs
  relisted : s.relisted = false

structure Attended (recipient id : String) (c : WorldConfig) : Prop where
  settling : Settling recipient c.state.hubs
  acks : ∀ t, (c.state.acks t).Of recipient
  listings : ∀ l, (c.state.listings l).Of recipient
  watched : Watched recipient id c.state (c.log.foldl (watch recipient id) Watch.start)

theorem Dead.move {recipient id : String} {w w' : Hubs} (dead : Dead recipient id w)
    (moves : Moves recipient id w w') : Dead recipient id w' := by
  intro r' found live
  obtain ⟨r, before, alive⟩ := moves.dead r' found live
  exact dead r before alive

theorem Listing.Clear.move {recipient id : String} {w w' : Hubs} (moves : Moves recipient id w w') {listing : Listing}
    (clear : listing.Clear recipient id w) : listing.Clear recipient id w' := by
  cases listing with
  | idle => trivial
  | mailboxRead => exact clear
  | boxFound => exact clear
  | d1Read =>
    refine ⟨clear.1, fun read => ?_⟩
    obtain ⟨handed, own⟩ := clear.2 read
    exact ⟨moves.handed.mpr handed, fun foreign => own (moves.foreign.mp foreign)⟩

/-- What the state shows for the monitor is kept by a step that stores nothing under the id. -/
theorem Watched.move {recipient id : String} {w : World} {s : Watch} (watched : Watched recipient id w s) {hubs : Hubs}
    (moves : Moves recipient id w.hubs hubs) : Watched recipient id { w with hubs := hubs } s := by
  constructor
  · intro t acking
    obtain ⟨dead, waits⟩ := watched.acking t acking
    exact ⟨dead.move moves, waits.imp_left (fun quiet => quiet.move moves)⟩
  · exact fun acked => (watched.acked acked).move moves
  · intro l begun
    obtain ⟨acked, clear⟩ := watched.begun l begun
    exact ⟨acked, clear.move moves⟩
  · exact watched.relisted

/-- A store under the id makes the monitor forget. -/
theorem watched_reset {recipient id : String} (w : World) {s : Watch} (relisted : s.relisted = false) :
    Watched recipient id w { Watch.start with relisted := s.relisted } :=
  ⟨fun t acking => (by cases acking), fun acked => (by cases acked), fun l begun => (by cases begun), relisted⟩

/-- The event tells the monitor nothing. -/
def WorldEvent.silent (recipient id : String) (event : WorldEvent) : Prop :=
  ∀ s, watch recipient id s event = s

theorem foldl_silent {recipient id : String} {events : List WorldEvent}
    (silent : ∀ event ∈ events, event.silent recipient id) (s : Watch) :
    events.foldl (watch recipient id) s = s := by
  induction events generalizing s with
  | nil => rfl
  | cons event rest ih =>
    rw [List.foldl_cons, silent event (List.mem_cons_self ..)]
    exact ih (fun other inside => silent other (List.mem_cons_of_mem _ inside)) s

theorem changes_silent {recipient id : String} {r : String} {collision : Bool} {before after : Mailbox.Store} :
    ∀ event ∈ (changes r collision before after).map WorldEvent.hub, event.silent recipient id := by
  intro event member s
  obtain ⟨change, inside, rfl⟩ := List.mem_map.mp member
  obtain ⟨row, -, seen⟩ := List.mem_filterMap.mp inside
  split at seen
  · cases seen
    rfl
  · split at seen
    · cases seen
      rfl
    · cases seen

theorem takeDones_silent {recipient id : String} (r : String) (done : List Done) (mb : Mailbox.Store) :
    ∀ event ∈ (takeDones r done mb).2.map WorldEvent.hub, event.silent recipient id := by
  induction done generalizing mb with
  | nil => intro event member; cases member
  | cons d rest ih =>
    intro event member
    rw [takeDones, List.map_append] at member
    rcases List.mem_append.mp member with first | later
    · exact changes_silent event first
    · exact ih _ event later

section Steps
variable {recipient id : String} {c : WorldConfig} (attended : Attended recipient id c)
include attended

theorem Attended.hubs {hubs : Hubs} (more : List WorldEvent) (settling : Settling recipient hubs)
    (moves : Moves recipient id c.state.hubs hubs) (silent : ∀ event ∈ more, event.silent recipient id) :
    Attended recipient id ⟨{ c.state with hubs := hubs }, c.log ++ more⟩ := by
  refine ⟨settling, attended.acks, attended.listings, ?_⟩
  rw [List.foldl_append, foldl_silent silent]
  exact attended.watched.move moves

/-- A store, under the id or another. -/
theorem Attended.store {hubs : Hubs} {event : WorldEvent} {stored : String} (settling : Settling recipient hubs)
    (moves : id ≠ stored → Moves recipient id c.state.hubs hubs)
    (stores : event.storesId recipient id = decide (stored = id))
    (silent : id ≠ stored → event.silent recipient id) :
    Attended recipient id ⟨{ c.state with hubs := hubs }, c.log ++ [event]⟩ := by
  by_cases same : stored = id
  · refine ⟨settling, attended.acks, attended.listings, ?_⟩
    rw [List.foldl_append, List.foldl_cons, List.foldl_nil, watch_store (by simp [stores, same])]
    exact watched_reset _ attended.watched.relisted
  · refine attended.hubs [event] settling (moves (Ne.symm same)) (fun other inside => ?_)
    rw [List.mem_singleton.mp inside]
    exact silent (Ne.symm same)

theorem Attended.insert {row : NewRow} {retry : Bool} {nowMs : Nat} :
    Attended recipient id ⟨(hubWorldStep c.state (.insert recipient row retry nowMs)).1,
      c.log ++ (hubWorldStep c.state (.insert recipient row retry nowMs)).2⟩ := by
  cases done : Mailbox.insert (c.state.hubs.mailboxes recipient) row retry nowMs Bounds.ruled with
  | mk answer mb' =>
    cases answer with
    | stored =>
      obtain ⟨free, rfl⟩ := insert_stored done
      obtain ⟨settling, moves⟩ := attended.settling.insert nowMs free
      simp only [hubWorldStep, acknowledgingOf, hubStep, insertStep, done]
      refine attended.store settling (moves id) (by simp [WorldEvent.storesId]) (fun other s => ?_)
      simp [watch, WorldEvent.storesId, Ne.symm other]
    | _ =>
      simp only [hubWorldStep, acknowledgingOf, hubStep, insertStep, done, List.map_nil, List.append_nil]
      exact attended

theorem Attended.acknowledge {ids : List String} {retry : Bool} {nowMs : Nat} :
    Attended recipient id ⟨(hubWorldStep c.state (.acknowledge recipient ids retry nowMs)).1,
      c.log ++ (hubWorldStep c.state (.acknowledge recipient ids retry nowMs)).2⟩ := by
  obtain ⟨settling, moves⟩ := attended.settling.acknowledge ids retry nowMs
  refine attended.hubs (.acknowledging recipient ids :: (changes recipient false _ _).map .hub) settling (moves id) ?_
  simp only [List.mem_cons, forall_eq_or_imp]
  exact ⟨fun s => rfl, changes_silent⟩

theorem Attended.replay {nowMs : Nat} :
    Attended recipient id ⟨(hubWorldStep c.state (.replay recipient nowMs)).1,
      c.log ++ (hubWorldStep c.state (.replay recipient nowMs)).2⟩ := by
  obtain ⟨settling, moves⟩ := attended.settling.replay nowMs
  exact attended.hubs [] settling (moves id) (by simp)

/-- A pass moves on and nothing else does. -/
theorem Attended.setPass (p : Nat) (pass : Pass) (ok : SettlingPass recipient c.state.hubs pass) :
    Attended recipient id ⟨{ c.state with hubs := c.state.hubs.setPass p pass }, c.log⟩ := by
  have kept := attended.hubs [] (attended.settling.setPass p ok)
    (Moves.refl recipient id c.state.hubs _) (by simp)
  simpa using kept

end Steps

end MessageRelay.Relay
