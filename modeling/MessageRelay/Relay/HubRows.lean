import MessageRelay.Relay.HubInvariant

/-! The hubs' own operations keep the invariant: an acknowledgment, a replay and a truthful
confirmation move rows in their places, and a store under the condition adds one. -/

namespace MessageRelay.Relay
open MessageRelay.Library MessageRelay.Mailbox MessageRelay.Archive MessageRelay.Database

/-- A row after an operation: in its place, its body kept or given up under a settled id. -/
structure Evolves (db : Database.Store) (recipient : String) (r r' : Row) : Prop where
  seq : r'.seq = r.seq
  messageId : r'.messageId = r.messageId
  version : r.version ≤ r'.version
  body : r'.body = r.body ∨ r'.body = none ∧ Settled db recipient r.messageId
  archived : 0 < r'.archivedVersion → 0 < r.archivedVersion ∨ Settled db recipient r.messageId

theorem Evolves.rowOk {db : Database.Store} {log : List HubEvent} {recipient : String} {r r' : Row}
    (moved : Evolves db recipient r r') (ok : RowOk db log recipient r) : RowOk db log recipient r' := by
  obtain ⟨row, stored, named, body⟩ := ok.origin
  refine ⟨⟨row, moved.seq ▸ stored, named.trans moved.messageId.symm, ?_⟩, fun positive => ?_,
    ok.counted.trans moved.version⟩
  · rw [moved.messageId]
    rcases moved.body with same | dropped
    · rw [same]
      exact body
    · exact .inr dropped
  · rw [moved.messageId]
    exact (moved.archived positive).elim ok.archived (fun settled => settled)

theorem archiveMessage_ok {db : Database.Store} {log : List HubEvent} {recipient : String} {r : Row}
    (ok : RowOk db log recipient r) : MessageOk db log (archiveMessage (archiveRow r) recipient) := by
  obtain ⟨row, stored, named, body⟩ := ok.origin
  rcases archiveMessage_cases (archiveRow r) recipient with inside | ⟨-, left⟩
  · rw [inside]
    refine ⟨ok.counted, fun b has => ?_, fun lost => .inr ?_⟩
    · change r.body = some b at has
      rcases body with same | ⟨lost, -⟩
      · rw [same] at has
        exact ⟨r.seq, row, stored, named, Option.some.inj has⟩
      · rw [lost] at has
        cases has
    · change r.body = none at lost
      rcases body with same | ⟨-, settled⟩
      · rw [same] at lost
        cases lost
      · exact settled
  · rw [left]
    refine ⟨ok.counted, fun b has => ?_, fun _ => .inl rfl⟩
    cases has

/-- The events of an operation on a hub's rows: a copy is given up only under a settled id. -/
theorem changes_settled {db : Database.Store} {recipient : String} {collision : Bool} {mb mb' : Mailbox.Store}
    (back : ∀ id r', mb'.find? id = some r' → ∃ r, mb.find? id = some r ∧ Evolves db recipient r r')
    (deleted : ∀ id r, mb.find? id = some r → mb'.find? id = none → collision = true ∨ Settled db recipient id)
    {e : HubEvent} (member : e ∈ changes recipient collision mb mb') :
    (∃ seq, e = .deleted recipient seq true) ∨ ∃ id r, mb.find? id = some r ∧ Settled db recipient id ∧
      (e = .deleted recipient r.seq false ∨ e = .bodyDropped recipient r.seq) := by
  obtain ⟨r, inside, seen⟩ := List.mem_filterMap.mp member
  have found := (mb.mem_rows_iff r).mp inside
  cases after : mb'.find? r.messageId with
  | none =>
    simp only [after, Option.some.injEq] at seen
    subst seen
    by_cases collides : collision = true
    · exact .inl ⟨r.seq, by rw [collides]⟩
    · have settled := (deleted _ r found after).resolve_left collides
      exact .inr ⟨_, r, found, settled, .inl (by rw [Bool.eq_false_of_not_eq_true collides])⟩
  | some r' =>
    simp only [after] at seen
    split at seen
    · rename_i dropped
      simp only [Bool.and_eq_true, Option.isSome_iff_exists, Option.isNone_iff_eq_none] at dropped
      obtain ⟨⟨body, had⟩, lost⟩ := dropped
      obtain ⟨r₀, found₀, moved⟩ := back _ r' after
      rw [found] at found₀
      cases Option.some.inj found₀
      rcases moved.body with same | ⟨-, settled⟩
      · rw [same, had] at lost
        cases lost
      · exact .inr ⟨_, r, found, settled, .inr (Option.some.inj seen).symm⟩
    · cases seen

/-- One hub's rows evolve, those deleted under an id that is D1's. -/
theorem Kept.evolve {c : HubConfig} (kept : Kept c) {recipient : String} (mb' : Mailbox.Store) (more : List HubEvent)
    (back : ∀ id r', mb'.find? id = some r' →
      ∃ r, (c.state.mailboxes recipient).find? id = some r ∧ Evolves c.state.db recipient r r')
    (forth : ∀ id r, (c.state.mailboxes recipient).find? id = some r → mb'.find? id = none →
      Settled c.state.db recipient id ∨ Foreign c.state.db recipient id)
    (nextSeq : mb'.nextSeq = (c.state.mailboxes recipient).nextSeq)
    (events : ∀ e ∈ more, (∃ seq, e = .deleted recipient seq true) ∨
      ∃ id r, (c.state.mailboxes recipient).find? id = some r ∧ Settled c.state.db recipient id ∧
        (e = .deleted recipient r.seq false ∨ e = .bodyDropped recipient r.seq)) :
    Kept ⟨c.state.setMailbox recipient mb', c.log ++ more⟩ := by
  have quiet : ∀ other seq row, .stored other seq row ∈ c.log ++ more → .stored other seq row ∈ c.log := by
    intro other seq row member
    rcases List.mem_append.mp member with old | new
    · exact old
    · rcases events _ new with ⟨_, no⟩ | ⟨_, _, _, _, no | no⟩ <;> cases no
  have unmoved := Advances.refl c.state.db
  have rowsOk : ∀ id r', mb'.find? id = some r' → RowOk c.state.db (c.log ++ more) recipient r' := by
    intro id r' found
    obtain ⟨r, before, moved⟩ := back id r' found
    exact (moved.rowOk (kept.rows recipient id r before)).advance unmoved more
  constructor
  case rows =>
    intro other id r found
    by_cases same : other = recipient
    · subst same
      simp only [Hubs.setMailbox, Function.update_self] at found
      exact rowsOk id r found
    · simp only [Hubs.setMailbox, Function.update_of_ne same] at found
      exact (kept.rows other id r found).advance unmoved more
  case stored =>
    intro other seq row stored
    have before := kept.stored other seq row (quiet other seq row stored)
    by_cases same : other = recipient
    · subst same
      simp only [Hubs.setMailbox, Function.update_self]
      rcases before with ⟨r, found, place⟩ | settled
      · cases after : mb'.find? row.messageId with
        | none => exact .inr (forth _ r found after)
        | some r' =>
          obtain ⟨r₀, found₀, moved⟩ := back _ r' after
          rw [found] at found₀
          cases Option.some.inj found₀
          exact .inl ⟨r', rfl, moved.seq.trans place⟩
      · exact .inr settled
    · simpa only [Hubs.setMailbox, Function.update_of_ne same] using before
  case agree =>
    intro other seq row seq' row' first second
    exact kept.agree other seq row seq' row' (quiet _ _ _ first) (quiet _ _ _ second)
  case written =>
    intro other seq row r stored
    exact kept.written other seq row r (quiet _ _ _ stored)
  case emptyBody =>
    intro other seq row r stored
    exact kept.emptyBody other seq row r (quiet _ _ _ stored)
  case places =>
    intro other seq row stored
    have before := kept.places other seq row (quiet _ _ _ stored)
    by_cases same : other = recipient
    · subst same
      simpa only [Hubs.setMailbox, Function.update_self, nextSeq] using before
    · simpa only [Hubs.setMailbox, Function.update_of_ne same] using before
  case unique =>
    intro other seq row row' first second
    exact kept.unique other seq row row' (quiet _ _ _ first) (quiet _ _ _ second)
  case gone =>
    intro other seq seen
    have fresh : ∀ e ∈ more, (e = .deleted other seq false ∨ e = .bodyDropped other seq) →
        ∃ row, .stored other seq row ∈ c.log ++ more ∧ Settled c.state.db other row.messageId := by
      intro e member shape
      rcases events e member with ⟨_, no⟩ | ⟨id, r, found, settled, same⟩
      · rcases shape with shape | shape <;> rw [no] at shape <;> cases shape
      · obtain ⟨row, stored, named, -⟩ := (kept.rows recipient id r found).origin
        have place : other = recipient ∧ seq = r.seq := by
          rcases shape with shape | shape <;> rcases same with same | same <;> rw [same] at shape <;>
            cases shape <;> exact ⟨rfl, rfl⟩
        obtain ⟨rfl, rfl⟩ := place
        refine ⟨row, List.mem_append_left _ stored, ?_⟩
        rw [named, Store.messageId_of_find? found]
        exact settled
    have old (before : .deleted other seq false ∈ c.log ∨ .bodyDropped other seq ∈ c.log) :
        ∃ row, .stored other seq row ∈ c.log ++ more ∧ Settled c.state.db other row.messageId := by
      obtain ⟨row, stored, settled⟩ := kept.gone other seq before
      exact ⟨row, List.mem_append_left _ stored, settled⟩
    rcases seen with seen | seen
    · rcases List.mem_append.mp seen with before | new
      · exact old (.inl before)
      · exact fresh _ new (.inl rfl)
    · rcases List.mem_append.mp seen with before | new
      · exact old (.inr before)
      · exact fresh _ new (.inr rfl)
  case queue => exact fun m member => (kept.queue m member).advance unmoved more
  case passes => exact fun p => (kept.passes p).advance unmoved more

/-- Rows a hub holds, handed to the queue. -/
theorem Kept.enqueueAfter {c : HubConfig} (kept : Kept c) {recipient : String} {rows : List ArchiveRow}
    (read : ∀ row ∈ rows, ∃ r, (c.state.mailboxes recipient).find? r.messageId = some r ∧ archiveRow r = row) :
    Kept { c with state := c.state.enqueueAfter recipient rows } := by
  refine ⟨kept.rows, kept.stored, kept.agree, kept.written, kept.emptyBody, kept.places, kept.unique,
    kept.gone, fun m member => ?_, kept.passes⟩
  rcases List.mem_append.mp member with before | new
  · exact kept.queue m before
  · obtain ⟨row, inside, rfl⟩ := List.mem_map.mp new
    obtain ⟨r, found, rfl⟩ := read row inside
    exact archiveMessage_ok (kept.rows recipient _ r found)

theorem Kept.acknowledge {c : HubConfig} (kept : Kept c) (recipient : String) (ids : List String) (retry : Bool)
    (nowMs : Nat) :
    Kept ⟨(acknowledgeStep c.state recipient ids retry nowMs).1,
      c.log ++ (acknowledgeStep c.state recipient ids retry nowMs).2⟩ := by
  have after (id : String) := acknowledge_find? (c.state.mailboxes recipient) ids retry nowMs id
  have back : ∀ id r', (Mailbox.acknowledge (c.state.mailboxes recipient) ids retry nowMs).2.find? id = some r' →
      ∃ r, (c.state.mailboxes recipient).find? id = some r ∧ Evolves c.state.db recipient r r' := by
    intro id r' found
    rw [after] at found
    obtain ⟨r, before, rfl⟩ := Option.map_eq_some_iff.mp found
    refine ⟨r, before, ?_⟩
    unfold ackRow
    split
    · refine ⟨rfl, rfl, Nat.le_succ _, ?_, .inl⟩
      simp only [Row.acknowledge]
      split
      · rename_i positive
        exact .inr ⟨rfl, (kept.rows recipient id r before).archived positive⟩
      · exact .inl rfl
    · exact ⟨rfl, rfl, le_rfl, .inl rfl, .inl⟩
  have stays : ∀ id r, (c.state.mailboxes recipient).find? id = some r →
      (Mailbox.acknowledge (c.state.mailboxes recipient) ids retry nowMs).2.find? id ≠ none := by
    intro id r before lost
    rw [after, before] at lost
    cases lost
  have moved := kept.evolve _ (changes recipient false _ _) back
    (fun id r before lost => absurd lost (stays id r before)) (acknowledge_nextSeq ..) (fun e member =>
      changes_settled back (fun id r before lost => absurd lost (stays id r before)) member)
  refine moved.enqueueAfter (fun row member => ?_)
  obtain ⟨r, found, -, same⟩ := mem_archiveRows.mp member
  refine ⟨r, ?_, same⟩
  simp only [Hubs.setMailbox, Function.update_self]
  exact found

theorem Kept.replay {c : HubConfig} (kept : Kept c) (recipient : String) (nowMs : Nat) :
    Kept ⟨(replayStep c.state recipient nowMs).1, c.log ++ (replayStep c.state recipient nowMs).2⟩ := by
  have after (id : String) := takeOwedDue_find? (c.state.mailboxes recipient) nowMs id
  have moved := kept.evolve (takeOwedDue (c.state.mailboxes recipient) nowMs).2 []
    (fun id r' found => ?_) (fun id r before lost => ?_) (takeOwedDue_nextSeq ..) (fun e member => by cases member)
  · refine moved.enqueueAfter (fun row member => ?_)
    obtain ⟨r, due, rfl⟩ := List.mem_map.mp member
    refine ⟨{ r with enqueuedAt := some nowMs }, ?_, rfl⟩
    simp only [Hubs.setMailbox, Function.update_self]
    rw [after, mem_owedDue due, Option.map_some, if_pos ⟨r, due, rfl⟩]
  · rw [after] at found
    obtain ⟨r, before, rfl⟩ := Option.map_eq_some_iff.mp found
    refine ⟨r, before, ?_⟩
    split <;> exact ⟨rfl, rfl, le_rfl, .inl rfl, .inl⟩
  · rw [after, before] at lost
    cases lost

/-- One truthful confirmation at a hub. -/
theorem Kept.doneOne {c : HubConfig} (kept : Kept c) {recipient : String} {d : Done}
    (ok : DoneOk c.state.db recipient d) :
    Kept ⟨c.state.setMailbox recipient (archiveDoneOne (c.state.mailboxes recipient) d),
      c.log ++ changes recipient d.collision (c.state.mailboxes recipient)
        (archiveDoneOne (c.state.mailboxes recipient) d)⟩ := by
  have after (id : String) := archiveDoneOne_find? (c.state.mailboxes recipient) d id
  have settledOf (plain : ¬ d.collision = true) : Settled c.state.db recipient d.messageId := by
    unfold DoneOk at ok
    rwa [if_neg plain] at ok
  have back : ∀ id r', (archiveDoneOne (c.state.mailboxes recipient) d).find? id = some r' →
      ∃ r, (c.state.mailboxes recipient).find? id = some r ∧ Evolves c.state.db recipient r r' := by
    intro id r' found
    rw [after] at found
    split at found
    · rename_i same
      subst same
      obtain ⟨r, before, moved⟩ := Option.bind_eq_some_iff.mp found
      have named := Store.messageId_of_find? before
      refine ⟨r, before, ?_⟩
      unfold doneRow at moved
      split at moved
      · cases moved
      · split at moved
        · cases Option.some.inj moved
          exact ⟨rfl, rfl, le_rfl, .inl rfl, .inl⟩
        · rename_i plain
          have settled : Settled c.state.db recipient r.messageId := named ▸ settledOf plain
          split at moved
          · cases Option.some.inj moved
            exact ⟨rfl, rfl, le_rfl, .inl rfl, fun _ => .inr settled⟩
          · cases Option.some.inj moved
            refine ⟨rfl, rfl, le_rfl, ?_, fun _ => .inr settled⟩
            simp only
            split
            · exact .inr ⟨rfl, settled⟩
            · exact .inl rfl
    · exact ⟨r', found, rfl, rfl, le_rfl, .inl rfl, .inl⟩
  have lost : ∀ id r, (c.state.mailboxes recipient).find? id = some r →
      (archiveDoneOne (c.state.mailboxes recipient) d).find? id = none → id = d.messageId := by
    intro id r before gone
    rw [after] at gone
    split at gone
    · assumption
    · rw [before] at gone
      cases gone
  refine kept.evolve _ _ back (fun id r before gone => ?_) (archiveDoneOne_nextSeq ..)
    (fun e member => changes_settled back (fun id r before gone => ?_) member)
  · rw [lost id r before gone]
    by_cases plain : d.collision = true
    · unfold DoneOk at ok
      rw [if_pos plain] at ok
      exact .inr ok
    · exact .inl (settledOf plain)
  · rw [lost id r before gone]
    exact (Classical.em (d.collision = true)).imp_right settledOf

theorem Kept.takeDones {c : HubConfig} (kept : Kept c) {recipient : String} {done : List Done}
    (ok : ∀ d ∈ done, DoneOk c.state.db recipient d) :
    Kept ⟨c.state.setMailbox recipient (takeDones recipient done (c.state.mailboxes recipient)).1,
      c.log ++ (Relay.takeDones recipient done (c.state.mailboxes recipient)).2⟩ := by
  induction done generalizing c with
  | nil => simpa [Relay.takeDones, Hubs.setMailbox] using kept
  | cons d rest ih =>
    have first := kept.doneOne (ok d (List.mem_cons_self ..))
    have tail := ih first (fun d' inside => ok d' (List.mem_cons_of_mem _ inside))
    simpa [Relay.takeDones, Hubs.setMailbox] using tail

/-- A store under the condition. The id is free in the mailbox, so an earlier store under it has
left for D1, and it is this recipient's there only at version 0. -/
theorem Kept.insert {c : HubConfig} (kept : Kept c) {recipient : String} {row : NewRow} (nowMs : Nat)
    (free : (c.state.mailboxes recipient).find? row.messageId = none)
    (fresh : StoresFresh c.state.db recipient row) :
    Kept ⟨c.state.setMailbox recipient ((c.state.mailboxes recipient).append row nowMs),
      c.log ++ [.stored recipient (c.state.mailboxes recipient).nextSeq row]⟩ := by
  have after := fun id => Store.find?_append free nowMs id
  have unmoved := Advances.refl c.state.db
  have unsettled : ¬ Settled c.state.db recipient row.messageId := by
    rintro ⟨r, found, own, written⟩
    have zero := (fresh r found own).1
    omega
  have earlier : ∀ seq old, .stored recipient seq old ∈ c.log → old.messageId = row.messageId →
      Foreign c.state.db recipient row.messageId := by
    intro seq old stored same
    rcases kept.stored recipient seq old stored with ⟨r, found, -⟩ | settled | foreign
    · rw [same, free] at found
      cases found
    · exact absurd (same ▸ settled) unsettled
    · exact same ▸ foreign
  have stored_cases : ∀ other seq old,
      .stored other seq old ∈ c.log ++ [.stored recipient (c.state.mailboxes recipient).nextSeq row] →
        .stored other seq old ∈ c.log ∨
          other = recipient ∧ seq = (c.state.mailboxes recipient).nextSeq ∧ old = row := by
    intro other seq old member
    rcases List.mem_append.mp member with before | new
    · exact .inl before
    · cases List.mem_singleton.mp new
      exact .inr ⟨rfl, rfl, rfl⟩
  constructor
  case rows =>
    intro other id r found
    by_cases same : other = recipient
    · subst same
      simp only [Hubs.setMailbox, Function.update_self] at found
      rw [after] at found
      split at found
      · cases Option.some.inj found
        exact ⟨⟨row, List.mem_append_right _ (List.mem_singleton.mpr rfl), rfl, .inl rfl⟩,
          fun positive => absurd positive (by simp [freshRow]), le_rfl⟩
      · exact (kept.rows other id r found).advance unmoved _
    · simp only [Hubs.setMailbox, Function.update_of_ne same] at found
      exact (kept.rows other id r found).advance unmoved _
  case stored =>
    intro other seq old member
    rcases stored_cases other seq old member with before | ⟨rfl, rfl, rfl⟩
    · by_cases same : other = recipient
      · subst same
        simp only [Hubs.setMailbox, Function.update_self]
        rcases kept.stored other seq old before with ⟨r, found, place⟩ | settled
        · refine .inl ⟨r, ?_, place⟩
          rw [after, if_neg, found]
          intro named
          rw [← named, free] at found
          cases found
        · exact .inr settled
      · simpa only [Hubs.setMailbox, Function.update_of_ne same] using kept.stored other seq old before
    · simp only [Hubs.setMailbox, Function.update_self]
      exact .inl ⟨_, by rw [after, if_pos rfl], rfl⟩
  case agree =>
    intro other seq old seq' old' first second same
    rcases stored_cases other seq old first with before | ⟨rfl, rfl, rfl⟩
    · rcases stored_cases other seq' old' second with before' | ⟨rfl, rfl, rfl⟩
      · exact kept.agree other seq old seq' old' before before' same
      · exact .inr (same ▸ earlier seq old before same)
    · rcases stored_cases other seq' old' second with before' | ⟨-, -, rfl⟩
      · exact .inr (earlier seq' old' before' same.symm)
      · exact .inl rfl
  case written =>
    intro other seq old r member found own written
    rcases stored_cases other seq old member with before | ⟨rfl, rfl, rfl⟩
    · exact kept.written other seq old r before found own written
    · exact absurd ⟨r, found, own, written⟩ unsettled
  case emptyBody =>
    intro other seq old r member empty found own
    rcases stored_cases other seq old member with before | ⟨rfl, rfl, rfl⟩
    · exact kept.emptyBody other seq old r before empty found own
    · exact absurd empty (fresh r found own).2
  case places =>
    intro other seq old member
    rcases stored_cases other seq old member with before | ⟨rfl, rfl, rfl⟩
    · have place := kept.places other seq old before
      by_cases same : other = recipient
      · subst same
        simp only [Hubs.setMailbox, Function.update_self]
        exact Nat.lt_succ_of_lt place
      · simpa only [Hubs.setMailbox, Function.update_of_ne same] using place
    · simp only [Hubs.setMailbox, Function.update_self]
      exact Nat.lt_succ_self _
  case unique =>
    intro other seq old old' first second
    rcases stored_cases other seq old first with before | ⟨rfl, rfl, rfl⟩
    · rcases stored_cases other seq old' second with before' | ⟨rfl, rfl, rfl⟩
      · exact kept.unique other seq old old' before before'
      · exact absurd (kept.places other _ old before) (Nat.lt_irrefl _)
    · rcases stored_cases other _ old' second with before' | ⟨-, -, rfl⟩
      · exact absurd (kept.places other _ old' before') (Nat.lt_irrefl _)
      · rfl
  case gone =>
    intro other seq seen
    have before : .deleted other seq false ∈ c.log ∨ .bodyDropped other seq ∈ c.log := by
      simpa using seen
    obtain ⟨old, stored, settled⟩ := kept.gone other seq before
    exact ⟨old, List.mem_append_left _ stored, settled⟩
  case queue => exact fun m member => (kept.queue m member).advance unmoved _
  case passes => exact fun p => (kept.passes p).advance unmoved _

theorem fillBodies_ok {c : HubConfig} (kept : Kept c) {recipient : String} {ids : List String}
    {batch : List ArchiveMessage} (ok : ∀ m ∈ batch, MessageOk c.state.db c.log m) :
    ∀ m ∈ fillBodies recipient (archiveRows (c.state.mailboxes recipient) ids) batch,
      MessageOk c.state.db c.log m := by
  intro m member
  obtain ⟨asked, inside, taken⟩ := List.mem_filterMap.mp member
  have before := ok asked inside
  split at taken
  · rename_i left
    obtain ⟨body, read, rfl⟩ := Option.map_eq_some_iff.mp taken
    refine ⟨before.counted, fun b has => ?_, fun lost => by cases lost⟩
    cases Option.some.inj has
    obtain ⟨row, found, has⟩ := Option.bind_eq_some_iff.mp read
    have named : row.messageId = asked.messageId := by simpa using List.find?_some found
    obtain ⟨r, there, -, rfl⟩ := mem_archiveRows.mp (List.mem_of_find?_eq_some found)
    obtain ⟨stored, event, same, kept' | ⟨lost, -⟩⟩ := (kept.rows recipient _ r there).origin
    · change r.body = some body at has
      rw [kept'] at has
      refine ⟨r.seq, stored, ?_, same.trans named, Option.some.inj has⟩
      rw [left.2]
      exact event
    · change r.body = some body at has
      rw [lost] at has
      cases has
  · cases Option.some.inj taken
    exact before

end MessageRelay.Relay
