import MessageRelay.Library.Machine
import MessageRelay.Presence.RoomRecord

/-! What a session's record of its rooms says after any history of joins and leaves: the rooms its close must walk. -/

namespace MessageRelay.Presence
open MessageRelay.Library

inductive RoomCall where
  | join (room : String)
  | leave (room : String)
  deriving DecidableEq, Repr

/-- The left rooms dropped to keep the record under its cap. -/
def droppedLeftRooms (base : Nat) (joined : List String) : List String → List String
  | [] => []
  | oldest :: rest =>
    if roomRecordMaxBytes < roomRecordBytes base ⟨joined, oldest :: rest⟩ then oldest :: droppedLeftRooms base joined rest
    else []

namespace RoomCall

/-- What the call makes of the record before the cap is looked at. -/
def changed (record : RoomRecord) : RoomCall → Option RoomRecord
  | join room =>
    let left := record.left.filter (fun l => l ≠ room)
    let held := record.joined.any (fun r => r = room)
    let joined := if held then record.joined else record.joined ++ [room]
    if left.length ≠ record.left.length || !held then some ⟨joined, left⟩ else none
  | leave room =>
    let joined := record.joined.filter (fun r => r ≠ room)
    if joined.length = record.joined.length then none
    else if isLobbyRoom room then some ⟨joined, record.left⟩
    else some ⟨joined, record.left.filter (fun l => l ≠ room) ++ [room]⟩

def apply (base : Nat) (record : RoomRecord) : RoomCall → Option RoomRecord
  | join room => recordJoin base record room
  | leave room => recordLeave base record room

/-- What the call answers: the left rooms it dropped, none where the record is unchanged. -/
def answer (base : Nat) (record : RoomRecord) (call : RoomCall) : Option (List String) :=
  (call.changed record).map (fun changed => droppedLeftRooms base changed.joined changed.left)

def after (base : Nat) (record : RoomRecord) (call : RoomCall) : RoomRecord := (call.apply base record).getD record

end RoomCall

/-- The log lists the left rooms dropped. -/
def recordMachine (base : Nat) : Machine RoomRecord RoomCall String :=
  ⟨fun record call => (call.after base record, (call.answer base record).getD [])⟩

def noRooms : Config RoomRecord String := ⟨⟨[], []⟩, []⟩

/-- Nothing is left of a socket whose departure was reported once. -/
def splitDeparture (a : SocketAttachment) : Option (SocketAttachment × List String × String) :=
  let rooms := closeWalk a.joinedRooms a.leftRooms
  if rooms = [] then none
  else some ({ a with joinedRooms := [], leftRooms := [] }, rooms, a.identityKey)

/-! What a history says of a room by itself, the newest call first. -/

/-- The last call on the room is a join. -/
def Holds : List RoomCall → String → Prop
  | [], _ => False
  | .join r :: past, room => r = room ∨ Holds past room
  | .leave r :: past, room => r ≠ room ∧ Holds past room

/-- The last call that did anything to the room is a leave. -/
def Departed : List RoomCall → String → Prop
  | [], _ => False
  | .join r :: past, room => r ≠ room ∧ Departed past room
  | .leave r :: past, room => (r = room ∧ Holds past room) ∨ Departed past room

instance decidableHolds : ∀ past room, Decidable (Holds past room)
  | [], _ => .isFalse id
  | .join r :: past, room => have := decidableHolds past room; inferInstanceAs (Decidable (r = room ∨ Holds past room))
  | .leave r :: past, room => have := decidableHolds past room; inferInstanceAs (Decidable (r ≠ room ∧ Holds past room))

/-- How many calls came before the room's last leave. -/
def leftAfter : List RoomCall → String → Nat
  | [], _ => 0
  | call :: past, room => if call = .leave room ∧ Holds past room then past.length else leftAfter past room

theorem Departed.not_holds {past : List RoomCall} {room : String} (departed : Departed past room) : ¬ Holds past room := by
  induction past with
  | nil => exact id
  | cons call past ih =>
    cases call with
    | join r =>
      rintro (same | holds)
      · exact departed.1 same
      · exact ih departed.2 holds
    | leave r =>
      rintro ⟨other, holds⟩
      rcases departed with ⟨same, -⟩ | departed
      · exact other same
      · exact ih departed holds

theorem Departed.leftAfter_lt {past : List RoomCall} {room : String} (departed : Departed past room) :
    leftAfter past room < past.length := by
  induction past with
  | nil => exact departed.elim
  | cons call past ih =>
    rw [leftAfter, List.length_cons]
    split_ifs with leaves
    · exact Nat.lt_succ_self _
    · refine Nat.lt_succ_of_lt (ih ?_)
      cases call with
      | join r => exact departed.2
      | leave r =>
        refine departed.resolve_left (fun left => leaves ⟨?_, left.2⟩)
        rw [left.1]

/-- The rooms left and not rejoined, lobby rooms apart, in the order left. -/
structure LeftInOrder (past : List RoomCall) (rooms : List String) : Prop where
  sorted : rooms.Pairwise (fun a b => leftAfter past a < leftAfter past b)
  mem_iff : ∀ room, room ∈ rooms ↔ isLobbyRoom room = false ∧ Departed past room

namespace LeftInOrder

variable {past : List RoomCall} {rooms : List String} {room : String}

theorem nodup (order : LeftInOrder past rooms) : rooms.Nodup := by
  refine order.sorted.imp (fun {a b} before same => ?_)
  rw [same] at before
  exact Nat.lt_irrefl _ before

theorem filter (order : LeftInOrder past rooms) (room : String) :
    LeftInOrder (.join room :: past) (rooms.filter (fun l => l ≠ room)) where
  sorted := by
    have same (r : String) : leftAfter (.join room :: past) r = leftAfter past r := if_neg (fun leaves => nomatch leaves.1)
    simp only [same]
    exact order.sorted.filter _
  mem_iff := by
    intro r
    rw [List.mem_filter, order.mem_iff r, Departed, decide_eq_true_eq, and_assoc, and_comm (a := room ≠ r), ne_comm]

theorem same_join (order : LeftInOrder past rooms) (absent : room ∉ rooms) : LeftInOrder (.join room :: past) rooms := by
  have whole : rooms.filter (fun l => l ≠ room) = rooms :=
    List.filter_eq_self.mpr (fun r member => decide_eq_true (fun same => absent (same ▸ member)))
  exact whole ▸ order.filter room

theorem leave (order : LeftInOrder past rooms) (holds : Holds past room) (kept : isLobbyRoom room = false) :
    LeftInOrder (.leave room :: past) (rooms ++ [room]) where
  sorted := by
    have last : leftAfter (.leave room :: past) room = past.length := if_pos ⟨rfl, holds⟩
    have early (r : String) (member : r ∈ rooms) : leftAfter (.leave room :: past) r = leftAfter past r := by
      have departed := ((order.mem_iff r).mp member).2
      refine if_neg (fun leaves => departed.not_holds ?_)
      cases leaves.1
      exact holds
    rw [List.pairwise_append]
    refine ⟨?_, List.pairwise_singleton _ _, ?_⟩
    · refine order.sorted.imp_of_mem (fun {a b} first second before => ?_)
      rwa [early a first, early b second]
    · intro r member other single
      rw [List.mem_singleton.mp single, last, early r member]
      exact ((order.mem_iff r).mp member).2.leftAfter_lt
  mem_iff := by
    intro r
    rw [List.mem_append, order.mem_iff r, List.mem_singleton, Departed]
    constructor
    · rintro (⟨other, departed⟩ | rfl)
      · exact ⟨other, .inr departed⟩
      · exact ⟨kept, .inl ⟨rfl, holds⟩⟩
    · rintro ⟨other, ⟨rfl, -⟩ | departed⟩
      · exact .inr rfl
      · exact .inl ⟨other, departed⟩

/-- A leave of a lobby room, or of a room not held, tells the close of nothing. -/
theorem same_leave (order : LeftInOrder past rooms) (idle : isLobbyRoom room = true ∨ ¬ Holds past room) :
    LeftInOrder (.leave room :: past) rooms where
  sorted := by
    refine order.sorted.imp_of_mem (fun {a b} first second before => ?_)
    have early (r : String) (member : r ∈ rooms) : leftAfter (.leave room :: past) r = leftAfter past r := by
      have departed := ((order.mem_iff r).mp member).2
      refine if_neg (fun leaves => departed.not_holds leaves.2)
    rwa [early a first, early b second]
  mem_iff := by
    intro r
    rw [order.mem_iff r, Departed]
    constructor
    · rintro ⟨other, departed⟩
      exact ⟨other, .inr departed⟩
    · rintro ⟨other, ⟨rfl, holds⟩ | departed⟩
      · rcases idle with lobby | absent
        · rw [other] at lobby
          cases lobby
        · exact absurd holds absent
      · exact ⟨other, departed⟩

end LeftInOrder

theorem dropped_append_bound (base : Nat) (joined left : List String) :
    droppedLeftRooms base joined left ++ boundLeftRooms base joined left = left := by
  induction left with
  | nil => rfl
  | cons oldest rest ih =>
    rw [droppedLeftRooms, boundLeftRooms]
    split_ifs
    · rw [List.cons_append, ih]
    · rfl

theorem bound_fits (base : Nat) (joined left : List String) :
    roomRecordBytes base ⟨joined, boundLeftRooms base joined left⟩ ≤ roomRecordMaxBytes ∨
      boundLeftRooms base joined left = [] := by
  induction left with
  | nil => exact .inr rfl
  | cons oldest rest ih =>
    rw [boundLeftRooms]
    split_ifs with large
    · exact ih
    · exact .inl (Nat.le_of_not_lt large)

/-- The record was over its cap with the last left room dropped still in it. -/
theorem dropped_over (base : Nat) (joined left : List String) {front : List String} {last : String}
    (dropped : droppedLeftRooms base joined left = front ++ [last]) :
    roomRecordMaxBytes < roomRecordBytes base ⟨joined, last :: boundLeftRooms base joined left⟩ := by
  induction left generalizing front with
  | nil => simp [droppedLeftRooms] at dropped
  | cons oldest rest ih =>
    rw [droppedLeftRooms] at dropped
    split_ifs at dropped with large
    · rw [boundLeftRooms, if_pos large]
      cases front with
      | nil =>
        obtain ⟨rfl, none'⟩ := List.cons.inj dropped
        have same := dropped_append_bound base joined rest
        rw [none', List.nil_append] at same
        rwa [same]
      | cons first front => exact ih (List.cons.inj dropped).2
    · simp at dropped

namespace RoomCall

theorem apply_eq (base : Nat) (record : RoomRecord) (call : RoomCall) :
    call.apply base record = (call.changed record).map (RoomRecord.bound base) := by
  cases call with
  | join room =>
    simp only [apply, recordJoin, changed]
    split_ifs <;> rfl
  | leave room =>
    simp only [apply, recordLeave, changed]
    split_ifs <;> rfl

section
variable {record : RoomRecord} {room : String}

theorem changed_join_of_not_mem (absent : room ∉ record.joined) :
    (join room).changed record = some ⟨record.joined ++ [room], record.left.filter (fun l => l ≠ room)⟩ := by
  have held : record.joined.any (fun r => r = room) = false := by
    rw [List.any_eq_false]
    intro r member same
    exact absent (of_decide_eq_true same ▸ member)
  simp only [changed, held, Bool.not_false, Bool.or_true, if_true, Bool.false_eq_true, if_false]

theorem changed_join_of_mem (held : room ∈ record.joined) :
    (join room).changed record =
      if room ∈ record.left then some ⟨record.joined, record.left.filter (fun l => l ≠ room)⟩ else none := by
  have found : record.joined.any (fun r => r = room) = true := by simpa using held
  have moved : (record.left.filter (fun l => l ≠ room)).length ≠ record.left.length ↔ room ∈ record.left := by
    rw [ne_eq, List.length_filter_eq_length_iff]
    simp
  simp only [changed, found, Bool.not_true, Bool.or_false, if_true, decide_eq_true_eq, moved]

theorem changed_leave_of_not_mem (absent : room ∉ record.joined) : (leave room).changed record = none := by
  have whole : record.joined.filter (fun r => r ≠ room) = record.joined :=
    List.filter_eq_self.mpr (fun r member => decide_eq_true (fun same => absent (same ▸ member)))
  simp only [changed, whole, if_true]

theorem changed_leave_of_mem (held : room ∈ record.joined) :
    (leave room).changed record = some ⟨record.joined.filter (fun r => r ≠ room),
      if isLobbyRoom room then record.left else record.left.filter (fun l => l ≠ room) ++ [room]⟩ := by
  have fewer : (record.joined.filter (fun r => r ≠ room)).length ≠ record.joined.length := by
    rw [ne_eq, List.length_filter_eq_length_iff]
    exact fun all => absurd rfl (of_decide_eq_true (all room held))
  simp only [changed, if_neg fewer]
  split_ifs <;> rfl

end

/-- A record that a call moved is another record, whatever the cap takes from it. -/
theorem changed_ne (base : Nat) {record after : RoomRecord} {call : RoomCall} (changes : call.changed record = some after) :
    RoomRecord.bound base after ≠ record := by
  have shorter : (RoomRecord.bound base after).left.length ≤ after.left.length := by
    have parts := congrArg List.length (dropped_append_bound base after.joined after.left)
    rw [List.length_append] at parts
    exact Nat.le.intro ((Nat.add_comm ..).trans parts)
  intro same
  cases call with
  | join room =>
    by_cases held : room ∈ record.joined
    · rw [changed_join_of_mem held] at changes
      split_ifs at changes with left
      cases changes
      rw [same] at shorter
      exact absurd (List.length_filter_eq_length_iff.mp (Nat.le_antisymm (List.length_filter_le ..) shorter) room left)
        (by simp)
    · rw [changed_join_of_not_mem held] at changes
      cases changes
      have lengths := congrArg (fun record => record.joined.length) same
      simp [RoomRecord.bound] at lengths
  | leave room =>
    by_cases held : room ∈ record.joined
    · rw [changed_leave_of_mem held] at changes
      cases changes
      have gone : room ∉ record.joined := by
        rw [← same]
        simp [RoomRecord.bound]
      exact gone held
    · rw [changed_leave_of_not_mem held] at changes
      cases changes

theorem answer_eq_none (base : Nat) (record : RoomRecord) (call : RoomCall) :
    call.answer base record = none ↔ call.after base record = record := by
  rw [answer, after, apply_eq]
  cases changes : call.changed record with
  | none => simp
  | some changed => simpa using changed_ne base changes

end RoomCall

/-- What a run keeps of the record: its held rooms, and the left rooms behind those dropped. -/
structure RoomsKept (base : Nat) (past : List RoomCall) (c : Config RoomRecord String) : Prop where
  nodup : c.state.joined.Nodup
  holds : ∀ room, room ∈ c.state.joined ↔ Holds past room
  left : ∃ front, LeftInOrder past (front ++ c.state.left) ∧ ∀ room ∈ front, room ∈ c.log
  fits : roomRecordBytes base c.state ≤ roomRecordMaxBytes ∨ c.state.left = []

/-- What the cap takes is the front of the left rooms, and it is logged. -/
theorem RoomsKept.bounded {base : Nat} {past : List RoomCall} {joined left front log : List String} (nodup : joined.Nodup)
    (holds : ∀ room, room ∈ joined ↔ Holds past room) (order : LeftInOrder past (front ++ left))
    (logged : ∀ room ∈ front, room ∈ log) :
    RoomsKept base past ⟨RoomRecord.bound base ⟨joined, left⟩, log ++ droppedLeftRooms base joined left⟩ where
  nodup := nodup
  holds := holds
  left := by
    refine ⟨front ++ droppedLeftRooms base joined left, ?_, ?_⟩
    · rw [List.append_assoc]
      change LeftInOrder past (front ++ (_ ++ boundLeftRooms base joined left))
      rwa [dropped_append_bound]
    · intro room member
      rw [List.mem_append] at member ⊢
      exact member.imp_left (logged room)
  fits := bound_fits base joined left

theorem RoomsKept.call {base : Nat} {past : List RoomCall} {c : Config RoomRecord String} (kept : RoomsKept base past c)
    (call : RoomCall) : RoomsKept base (call :: past) ((recordMachine base).advance c call) := by
  have moved : (recordMachine base).advance c call =
      match call.changed c.state with
      | none => c
      | some changed => ⟨RoomRecord.bound base changed, c.log ++ droppedLeftRooms base changed.joined changed.left⟩ := by
    rw [Machine.advance]
    simp only [recordMachine, RoomCall.after, RoomCall.answer, RoomCall.apply_eq]
    cases call.changed c.state <;> simp
  obtain ⟨front, order, logged⟩ := kept.left
  rw [moved]
  cases call with
  | join room =>
    by_cases held : room ∈ c.state.joined
    · have holds := (kept.holds room).mp held
      have absent : room ∉ front ++ c.state.left := fun member => ((order.mem_iff room).mp member).2.not_holds holds
      rw [RoomCall.changed_join_of_mem held, if_neg (fun left => absent (List.mem_append_right front left))]
      refine ⟨kept.nodup, fun r => ?_, ⟨front, order.same_join absent, logged⟩, kept.fits⟩
      rw [kept.holds r, Holds]
      exact ⟨.inr, fun either => either.elim (fun same => same ▸ holds) id⟩
    · rw [RoomCall.changed_join_of_not_mem held]
      have rest := order.filter room
      rw [List.filter_append] at rest
      refine RoomsKept.bounded ?_ (fun r => ?_) rest (fun r member => logged r (List.mem_of_mem_filter member))
      · exact List.nodup_append.mpr ⟨kept.nodup, List.nodup_singleton _, fun a first b second =>
          List.mem_singleton.mp second ▸ fun same => held (same ▸ first)⟩
      · rw [List.mem_append, List.mem_singleton, kept.holds r, Holds, or_comm, eq_comm]
  | leave room =>
    by_cases held : room ∈ c.state.joined
    · have holds := (kept.holds room).mp held
      have absent : room ∉ front ++ c.state.left := fun member => ((order.mem_iff room).mp member).2.not_holds holds
      have whole : c.state.left.filter (fun l => l ≠ room) = c.state.left :=
        List.filter_eq_self.mpr (fun r member =>
          decide_eq_true (fun same => absent (List.mem_append_right front (same ▸ member))))
      rw [RoomCall.changed_leave_of_mem held, whole]
      have rest : LeftInOrder (.leave room :: past)
          (front ++ if isLobbyRoom room then c.state.left else c.state.left ++ [room]) := by
        by_cases lobby : isLobbyRoom room = true
        · rw [if_pos lobby]
          exact order.same_leave (.inl lobby)
        · rw [if_neg lobby, ← List.append_assoc]
          exact order.leave holds (Bool.eq_false_iff.mpr lobby)
      refine RoomsKept.bounded (kept.nodup.filter _) (fun r => ?_) rest logged
      rw [List.mem_filter, kept.holds r, Holds, decide_eq_true_eq, and_comm, ne_comm]
    · rw [RoomCall.changed_leave_of_not_mem held]
      have absent : ¬ Holds past room := fun holds => held ((kept.holds room).mpr holds)
      refine ⟨kept.nodup, fun r => ?_, ⟨front, order.same_leave (.inr absent), logged⟩, kept.fits⟩
      rw [kept.holds r, Holds]
      exact ⟨fun holds => ⟨fun same => absent (same ▸ holds), holds⟩, And.right⟩

theorem roomsKept_run (base : Nat) (calls : List RoomCall) :
    RoomsKept base calls.reverse ((recordMachine base).run noRooms calls) := by
  induction calls using List.reverseRecOn with
  | nil =>
    refine ⟨List.nodup_nil, fun room => ?_, ⟨[], ⟨List.Pairwise.nil, fun room => ?_⟩, ?_⟩, .inr rfl⟩
    · simp [noRooms, Holds]
    · simp [noRooms, Departed]
    · simp
  | append_singleton calls call ih =>
    rw [Machine.run_append, List.reverse_append]
    exact ih.call call

theorem closeWalk_of_disjoint {joined left : List String} (nodup : left.Nodup) (apart : ∀ room ∈ left, room ∉ joined) :
    closeWalk joined left = joined ++ left := by
  unfold closeWalk
  induction left generalizing joined with
  | nil => simp
  | cons first rest ih =>
    have others := List.nodup_cons.mp nodup
    rw [List.foldl_cons, if_neg (apart first List.mem_cons_self), ih others.2, List.append_assoc, List.singleton_append]
    intro room member
    rw [List.mem_append, List.mem_singleton, not_or]
    exact ⟨apart room (List.mem_cons_of_mem _ member), fun same => others.1 (same ▸ member)⟩

theorem splitDeparture_latched {a latched : SocketAttachment} {rooms : List String} {leaver : String}
    (split : splitDeparture a = some (latched, rooms, leaver)) : splitDeparture latched = none := by
  unfold splitDeparture at split
  simp only at split
  split_ifs at split
  cases split
  rfl

/-- After any joins and leaves a session holds the rooms last joined. The left rooms are those left and not rejoined, lobby
rooms apart, oldest first, behind a front that calls dropped for the cap. A close walks all of them once. -/
theorem room_record_walked (base : Nat) (calls : List RoomCall) :
    let c := (recordMachine base).run noRooms calls
    c.state.joined.Nodup ∧ (∀ room, room ∈ c.state.joined ↔ Holds calls.reverse room) ∧
    c.state.left.Nodup ∧ (∀ room ∈ c.state.left, room ∉ c.state.joined) ∧
    (∃ front, (front ++ c.state.left).Pairwise (fun a b => leftAfter calls.reverse a < leftAfter calls.reverse b) ∧
      (∀ room, room ∈ front ++ c.state.left ↔ isLobbyRoom room = false ∧ Departed calls.reverse room) ∧
      ∀ room ∈ front, room ∈ c.log) ∧
    (roomRecordBytes base c.state ≤ roomRecordMaxBytes ∨ c.state.left = []) ∧
    (∀ call : RoomCall, (call.answer base c.state = none ↔ call.after base c.state = c.state) ∧
      ∀ front last, call.answer base c.state = some (front ++ [last]) →
        roomRecordMaxBytes < roomRecordBytes base
          ⟨(call.after base c.state).joined, last :: (call.after base c.state).left⟩) ∧
    closeWalk c.state.joined c.state.left = c.state.joined ++ c.state.left ∧
    ∀ a latched rooms leaver, splitDeparture a = some (latched, rooms, leaver) → splitDeparture latched = none := by
  intro c
  have kept : RoomsKept base calls.reverse c := roomsKept_run base calls
  obtain ⟨front, order, logged⟩ := kept.left
  have nodup : c.state.left.Nodup := (List.nodup_append.mp order.nodup).2.1
  have apart : ∀ room ∈ c.state.left, room ∉ c.state.joined := by
    intro room member held
    have departed := ((order.mem_iff room).mp (List.mem_append_right front member)).2
    exact departed.not_holds ((kept.holds room).mp held)
  refine ⟨kept.nodup, kept.holds, nodup, apart, ⟨front, order.sorted, order.mem_iff, logged⟩, kept.fits, ?_,
    closeWalk_of_disjoint nodup apart, fun a latched rooms leaver split => splitDeparture_latched split⟩
  intro call
  refine ⟨RoomCall.answer_eq_none base c.state call, fun front last answered => ?_⟩
  obtain ⟨changed, changes, dropped⟩ := Option.map_eq_some_iff.mp answered
  rw [RoomCall.after, RoomCall.apply_eq, changes]
  exact dropped_over base changed.joined changed.left dropped

end MessageRelay.Presence
