import MessageRelay.Relay.Stored
import MessageRelay.Relay.Settling

/-! The hub's own operations and the archive's passes, on one hub: each keeps the invariant, and each
moves an id it does not store as `Moves` says. -/

namespace MessageRelay.Relay
open MessageRelay.Library MessageRelay.Mailbox MessageRelay.Archive MessageRelay.Database

theorem archiveMessage_fromHub {r : Row} (counted : Counted r) (recipient : String) :
    FromHub recipient (archiveMessage (archiveRow r) recipient) := by
  obtain ⟨addressed, -, version⟩ := archiveMessage_named (archiveRow r) recipient
  have change : (archiveMessage (archiveRow r) recipient).change = if r.state = .live then .insert else .acknowledge := by
    rcases archiveMessage_cases (archiveRow r) recipient with inside | ⟨-, left⟩
    · rw [inside]
      rfl
    · rw [left]
      rfl
  refine ⟨addressed, fun second => ?_⟩
  have dead : r.state ≠ .live := by
    intro live
    have one := counted.1 live
    have two : 2 ≤ (archiveRow r).version := version ▸ second
    simp only [archiveRow] at two
    omega
  rw [change, if_neg dead]

section Rows
variable {recipient : String} {w : Hubs} (settling : Settling recipient w)
include settling

/-- The hub's rows move in their places, some of them handed over again, and a row leaves only once
D1 settled it. -/
theorem Settling.rows (mb' : Mailbox.Store) (rows : List ArchiveRow)
    (back : ∀ id r', mb'.find? id = some r' → ∃ r, (w.mailboxes recipient).find? id = some r ∧ Counted r' ∧
      (r'.state = .live → r.state = .live))
    (gone : ∀ id r, (w.mailboxes recipient).find? id = some r → mb'.find? id = none →
      Sealed w.db recipient id ∨ Foreign w.db recipient id)
    (read : ∀ row ∈ rows, ∃ r, mb'.find? r.messageId = some r ∧ archiveRow r = row) :
    Settling recipient ((w.setMailbox recipient mb').enqueueAfter recipient rows) ∧
      ∀ id, Moves recipient id w ((w.setMailbox recipient mb').enqueueAfter recipient rows) := by
  have own (id : String) : (((w.setMailbox recipient mb').enqueueAfter recipient rows).mailboxes recipient).find? id =
      mb'.find? id := by simp only [Hubs.enqueueAfter, Hubs.setMailbox, Function.update_self]
  have queue : ∀ m ∈ ((w.setMailbox recipient mb').enqueueAfter recipient rows).queue,
      m ∈ w.queue ∨ FromHub recipient m ∧ Enqueued w recipient m.messageId := by
    intro m member
    rcases List.mem_append.mp member with old | new
    · exact .inl old
    · obtain ⟨row, inside, rfl⟩ := List.mem_map.mp new
      obtain ⟨r', found, rfl⟩ := read row inside
      obtain ⟨r, before, counted, -⟩ := back _ r' found
      refine .inr ⟨archiveMessage_fromHub counted recipient, ?_⟩
      rw [(archiveMessage_named (archiveRow r') recipient).2.1]
      exact (settling.held _ r before).1
  have moves : ∀ id, Moves recipient id w ((w.setMailbox recipient mb').enqueueAfter recipient rows) := by
    intro id
    constructor
    · intro absent
      rw [own]
      cases found : mb'.find? id with
      | none => rfl
      | some r' =>
        obtain ⟨r, before, -⟩ := back id r' found
        rw [absent] at before
        cases before
    · intro r' found live
      rw [own] at found
      obtain ⟨r, before, -, alive⟩ := back id r' found
      exact ⟨r, before, alive live⟩
    · intro r found lost
      rw [own] at lost
      exact gone id r found lost
    · exact fun last => last
    · exact Iff.rfl
    · constructor
      · intro handed
        obtain ⟨m, member, addressed, named⟩ := handed
        rcases queue m member with old | ⟨-, before⟩
        · exact ⟨m, old, addressed, named⟩
        · exact named ▸ before
      · intro handed
        obtain ⟨m, member, facts⟩ := handed
        exact ⟨m, List.mem_append_left _ member, facts⟩
    · exact fun _ unlisted => unlisted
  refine ⟨settling.move moves ?_ ?_ rfl settling.marked, moves⟩
  · intro id r' found
    rw [own] at found
    obtain ⟨-, -, counted, -⟩ := back id r' found
    exact counted
  · intro m member
    rcases queue m member with old | new
    · exact settling.queue m old
    · exact new.1

theorem Settling.acknowledge (ids : List String) (retry : Bool) (nowMs : Nat) :
    Settling recipient (acknowledgeStep w recipient ids retry nowMs).1 ∧
      ∀ id, Moves recipient id w (acknowledgeStep w recipient ids retry nowMs).1 := by
  have after (id : String) := acknowledge_find? (w.mailboxes recipient) ids retry nowMs id
  apply settling.rows (Mailbox.acknowledge (w.mailboxes recipient) ids retry nowMs).2
  · intro id r' found
    rw [after] at found
    obtain ⟨r, before, rfl⟩ := Option.map_eq_some_iff.mp found
    have counted := (settling.held id r before).2
    refine ⟨r, before, ?_⟩
    unfold ackRow
    split
    · rename_i moved
      have one := counted.1 moved.2
      refine ⟨⟨fun live => (by cases live), fun _ => ?_⟩, fun live => (by cases live)⟩
      simp only [Row.acknowledge]
      omega
    · exact ⟨counted, fun live => live⟩
  · intro id r before lost
    rw [after, before] at lost
    cases lost
  · intro row member
    obtain ⟨r, found, -, same⟩ := mem_archiveRows.mp member
    exact ⟨r, found, same⟩

theorem Settling.replay (nowMs : Nat) :
    Settling recipient (replayStep w recipient nowMs).1 ∧ ∀ id, Moves recipient id w (replayStep w recipient nowMs).1 := by
  have after (id : String) := takeOwedDue_find? (w.mailboxes recipient) nowMs id
  apply settling.rows (takeOwedDue (w.mailboxes recipient) nowMs).2
  · intro id r' found
    rw [after] at found
    obtain ⟨r, before, rfl⟩ := Option.map_eq_some_iff.mp found
    have counted := (settling.held id r before).2
    refine ⟨r, before, ?_⟩
    split
    · exact ⟨counted, fun live => live⟩
    · exact ⟨counted, fun live => live⟩
  · intro id r before lost
    rw [after, before] at lost
    cases lost
  · intro row member
    obtain ⟨r, due, rfl⟩ := List.mem_map.mp member
    exact ⟨{ r with enqueuedAt := some nowMs },
      by rw [after, mem_owedDue due, Option.map_some, if_pos ⟨r, due, rfl⟩], rfl⟩

/-- A confirmation that holds removes a marker only once D1 settled its id. -/
theorem Settling.doneOne {d : Done} (holds : DoneHolds w.db recipient d) :
    let mb' := archiveDoneOne (w.mailboxes recipient) d
    Settling recipient (w.setMailbox recipient mb') ∧ ∀ id, Moves recipient id w (w.setMailbox recipient mb') := by
  intro mb'
  have after (id : String) := archiveDoneOne_find? (w.mailboxes recipient) d id
  have moved := settling.rows mb' [] ?_ ?_ (by simp)
  · simpa only [Hubs.enqueueAfter, List.map_nil, List.append_nil] using moved
  · intro id r' found
    rw [after] at found
    split at found
    · obtain ⟨r, before, moved⟩ := Option.bind_eq_some_iff.mp found
      have counted := (settling.held id r before).2
      refine ⟨r, before, ?_⟩
      unfold doneRow at moved
      split at moved
      · cases moved
      · split at moved
        · cases Option.some.inj moved
          exact ⟨counted, fun live => live⟩
        · split at moved
          · cases Option.some.inj moved
            exact ⟨counted, fun live => live⟩
          · cases Option.some.inj moved
            exact ⟨counted, fun live => live⟩
    · exact ⟨r', found, (settling.held id r' found).2, fun live => live⟩
  · intro id r before lost
    rw [after] at lost
    split at lost
    · rename_i named
      rw [before, Option.bind_some] at lost
      unfold doneRow at lost
      split at lost
      · rename_i removed
        unfold DoneHolds at holds
        rw [named]
        by_cases collision : d.collision = true
        · rw [if_pos collision] at holds
          exact .inr holds
        · rw [if_neg collision] at holds
          have two := (settling.held id r before).2.2 removed.1
          have newer : r.version ≤ d.version := removed.2.resolve_left collision
          exact .inl (holds (by omega))
      · split at lost
        · cases lost
        · split at lost <;> cases lost
    · rw [before] at lost
      cases lost

end Rows

theorem Settling.takeDones {recipient : String} {w : Hubs} (settling : Settling recipient w) {done : List Done}
    (holds : ∀ d ∈ done, DoneHolds w.db recipient d) :
    let mb' := (Relay.takeDones recipient done (w.mailboxes recipient)).1
    Settling recipient (w.setMailbox recipient mb') ∧ ∀ id, Moves recipient id w (w.setMailbox recipient mb') := by
  induction done generalizing w with
  | nil =>
    have same : w.setMailbox recipient (w.mailboxes recipient) = w := by
      simp only [Hubs.setMailbox, Function.update_eq_self]
    simp only [Relay.takeDones, same]
    exact ⟨settling, fun id => Moves.refl recipient id w w.passes⟩
  | cons d rest ih =>
    obtain ⟨first, moves⟩ := settling.doneOne (holds d (List.mem_cons_self ..))
    have tail := ih first (fun other inside => (holds other (List.mem_cons_of_mem _ inside)))
    simp only [Hubs.setMailbox, Function.update_self, Function.update_idem, Relay.takeDones] at tail moves ⊢
    exact ⟨tail.1, fun id => (moves id).trans (tail.2 id)⟩

/-- A store leaves every other id as it was. -/
theorem Settling.insert {recipient : String} {w : Hubs} (settling : Settling recipient w) {row : NewRow} (nowMs : Nat)
    (free : (w.mailboxes recipient).find? row.messageId = none) :
    Settling recipient (w.stored recipient row nowMs) ∧
      ∀ id, id ≠ row.messageId → Moves recipient id w (w.stored recipient row nowMs) := by
  have handed (id : String) : Enqueued (w.stored recipient row nowMs) recipient id ↔
      Enqueued w recipient id ∨ id = row.messageId := by
    rw [Hubs.enqueued_stored free]
    simp
  have grows {id : String} (before : Enqueued w recipient id) : Enqueued (w.stored recipient row nowMs) recipient id :=
    (handed id).mpr (.inl before)
  have found (id : String) : ((w.stored recipient row nowMs).mailboxes recipient).find? id =
      if row.messageId = id then some (w.fresh recipient row nowMs) else (w.mailboxes recipient).find? id :=
    Hubs.find?_stored free id
  have counted : Counted (w.fresh recipient row nowMs) := ⟨fun _ => rfl, fun acked => by cases acked⟩
  refine ⟨⟨fun id r there => ?_, fun m member => ?_, fun p => ?_, fun id handed' => ?_, settling.marked⟩,
    fun id other => ?_⟩
  · rcases Hubs.held_stored free there with old | ⟨-, rfl, rfl⟩
    · exact ⟨grows (settling.held id r old).1, (settling.held id r old).2⟩
    · exact ⟨(handed _).mpr (.inr rfl), counted⟩
  · rcases (Hubs.mem_queue_stored free).mp member with old | rfl
    · exact settling.queue m old
    · exact archiveMessage_fromHub counted recipient
  · exact (settling.passes p).move (fun _ before => grows before) (fun _ last => last) (fun _ => Iff.rfl)
  · by_cases same : row.messageId = id
    · exact .inl (by rw [found, if_pos same]; simp)
    · rw [found, if_neg same]
      exact settling.settled id (((handed id).mp handed').resolve_right (Ne.symm same))
  · have same := (found id).trans (if_neg (Ne.symm other))
    constructor
    · exact fun absent => same.trans absent
    · exact fun r there live => ⟨r, same.symm.trans there, live⟩
    · intro r there lost
      rw [same, there] at lost
      cases lost
    · exact fun last => last
    · exact Iff.rfl
    · exact (handed id).trans (or_iff_left other)
    · exact fun _ unlisted => unlisted

end MessageRelay.Relay
