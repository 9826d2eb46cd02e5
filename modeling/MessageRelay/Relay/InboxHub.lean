import MessageRelay.Relay.Stored

/-! The hubs' operations and the consumers' reads keep what is owed: rows evolve in their mailbox,
and nothing new is under way for an id but the body its mailbox row holds. -/

namespace MessageRelay.Relay
open MessageRelay.Library MessageRelay.Mailbox MessageRelay.Archive MessageRelay.Database

def WorldEvent.stores : WorldEvent → Bool
  | .hub (.stored ..) => true
  | .paid .. => true
  | _ => false

/-- The event acknowledges the id for the recipient. -/
def WorldEvent.names (recipient id : String) : WorldEvent → Prop
  | .acknowledging r ids => recipient = r ∧ id ∈ ids
  | .acknowledged r ids => recipient = r ∧ id ∈ ids
  | _ => False

theorem mem_note_quiet {entries : List Entry} {event : WorldEvent} (quiet : event.stores = false) {e : Entry} :
    e ∈ note entries event ↔ e ∈ entries ∧ ¬ event.names e.recipient e.messageId := by
  cases event with
  | hub event => cases event <;> simp_all [note, WorldEvent.names, WorldEvent.stores]
  | paid => simp [WorldEvent.stores] at quiet
  | acknowledging r ids => simp only [note, WorldEvent.names, List.mem_filter, decide_eq_true_eq]
  | acknowledged r ids => simp only [note, WorldEvent.names, List.mem_filter, decide_eq_true_eq]
  | ackBegan | ackAnswered | listBegan | listed => simp [note, WorldEvent.names]

/-- Where nothing is stored, what is owed after is what was owed and not acknowledged. -/
theorem mem_owed_quiet {db : Database.Store} {log more : List WorldEvent}
    (quiet : ∀ event ∈ more, event.stores = false) {e : Entry} :
    e ∈ owed db (log ++ more) ↔ e ∈ owed db log ∧ ∀ event ∈ more, ¬ event.names e.recipient e.messageId := by
  have fold : ∀ (more : List WorldEvent) (entries : List Entry), (∀ event ∈ more, event.stores = false) →
      (e ∈ more.foldl note entries ↔
        e ∈ entries ∧ ∀ event ∈ more, ¬ event.names e.recipient e.messageId) := by
    intro more
    induction more with
    | nil => simp
    | cons event rest ih =>
      intro entries quiet
      rw [List.foldl_cons, ih _ (fun ev inside => quiet ev (List.mem_cons_of_mem _ inside)),
        mem_note_quiet (quiet event (List.mem_cons_self ..))]
      simp [and_assoc]
  rw [owed, List.foldl_append]
  exact fold more _ quiet

/-- Nothing new is under way: the same ids were handed over and the same bodies are carried. -/
theorem Sound.narrow {w w' : Hubs} (sound : Sound w)
    (grows : ∀ recipient id, Enqueued w recipient id → Enqueued w' recipient id)
    (same : ∀ recipient id, Enqueued w' recipient id → Enqueued w recipient id) (db : w'.db = w.db)
    (held : ∀ recipient id r', (w'.mailboxes recipient).find? id = some r' →
      ∃ r, (w.mailboxes recipient).find? id = some r ∧ RowShape r' ∧ ∀ b, r'.body = some b → r.body = some b)
    (queue : ∀ m ∈ w'.queue, m.version ≤ 2 ∧ ∀ b, m.body = some b → Carried w m.recipient m.messageId b)
    (passes : ∀ p, ∀ m ∈ (w'.passes p).messages, Enqueued w m.recipient m.messageId ∧ m.version ≤ 2 ∧
      ∀ b, m.body = some b → Carried w m.recipient m.messageId b) : Sound w' := by
  have carried : ∀ recipient id b, Carried w' recipient id b → Carried w recipient id b := by
    rintro recipient id b (⟨m, there | ⟨p, there⟩, rfl, rfl, has⟩ | ⟨r', found, has⟩)
    · exact (queue m there).2 b has
    · exact (passes p m there).2.2 b has
    · obtain ⟨r, before, -, bodies⟩ := held recipient id r' found
      exact .inr ⟨r, before, bodies b has⟩
  refine ⟨fun recipient id r' found => ?_, fun m member => (queue m member).1, fun p m member => ?_,
    fun recipient id => ?_⟩
  · obtain ⟨r, before, shape, -⟩ := held recipient id r' found
    exact ⟨grows _ _ (sound.held recipient id r before).1, shape⟩
  · exact ⟨grows _ _ (passes p m member).1, (passes p m member).2.1⟩
  · rw [db]
    refine (sound.agreed recipient id).imp (fun unhanded handed => unhanded (same _ _ handed)) (Or.imp_right ?_)
    rintro ⟨body, agree, row⟩
    exact ⟨body, fun b has => agree b (carried _ _ b has), by rw [db]; exact row⟩

section HubStep
variable {db : Database.Store} {c : WorldConfig} (faithful : Faithful db c) (recipient : String)
  (mb' : Mailbox.Store) (rows : List ArchiveRow) (more : List WorldEvent)
include faithful

/-- One hub's rows evolve and some of them are handed to the queue. A live row stays as it was
unless its id was acknowledged. -/
theorem Faithful.evolve
    (back : ∀ id r', mb'.find? id = some r' → ∃ r, (c.state.hubs.mailboxes recipient).find? id = some r ∧
      RowShape r' ∧ ∀ b, r'.body = some b → r.body = some b)
    (read : ∀ row ∈ rows, ∃ r, mb'.find? r.messageId = some r ∧ archiveRow r = row)
    (stays : ∀ id r, (c.state.hubs.mailboxes recipient).find? id = some r → r.state = .live →
      (∃ event ∈ more, event.names recipient id) ∨ ∃ r', mb'.find? id = some r' ∧ r'.state = .live ∧
        r'.messageBox = r.messageBox ∧ r'.sender = r.sender ∧ r'.body = r.body)
    (quiet : ∀ event ∈ more, event.stores = false) :
    Faithful db ⟨{ c.state with hubs := (c.state.hubs.setMailbox recipient mb').enqueueAfter recipient rows },
      c.log ++ more⟩ := by
  have sound := faithful.sound
  -- Every row handed over was in the mailbox before, so its id was handed over before.
  have handed : ∀ row ∈ rows, ∃ r, (c.state.hubs.mailboxes recipient).find? row.messageId = some r ∧
      row.version ≤ 2 ∧ ∀ b, row.body = some b → r.body = some b := by
    intro row member
    obtain ⟨r', found, rfl⟩ := read row member
    obtain ⟨r, before, shape, bodies⟩ := back _ r' found
    exact ⟨r, before, shape.version, bodies⟩
  have same : ∀ other id, Enqueued ((c.state.hubs.setMailbox recipient mb').enqueueAfter recipient rows) other id →
      Enqueued c.state.hubs other id := by
    rintro other id ⟨m, member, rfl, rfl⟩
    rcases List.mem_append.mp member with old | new
    · exact ⟨m, old, rfl, rfl⟩
    · obtain ⟨row, inside, rfl⟩ := List.mem_map.mp new
      obtain ⟨r, before, -⟩ := handed row inside
      obtain ⟨to', named, -⟩ := archiveMessage_named row recipient
      rw [to', named]
      exact (sound.held recipient _ r before).1
  refine ⟨sound.narrow ?_ same rfl ?_ ?_ ?_, ?_⟩
  · rintro other id ⟨m, member, facts⟩
    exact ⟨m, List.mem_append_left _ member, facts⟩
  · intro other id r' found
    by_cases own : other = recipient
    · subst own
      simp only [Hubs.enqueueAfter, Hubs.setMailbox, Function.update_self] at found
      exact back id r' found
    · simp only [Hubs.enqueueAfter, Hubs.setMailbox, Function.update_of_ne own] at found
      exact ⟨r', found, (sound.held other id r' found).2, fun b has => has⟩
  · intro m member
    rcases List.mem_append.mp member with old | new
    · exact ⟨sound.queue m old, fun b has => .inl ⟨m, .inl old, rfl, rfl, has⟩⟩
    · obtain ⟨row, inside, rfl⟩ := List.mem_map.mp new
      obtain ⟨r, before, version, bodies⟩ := handed row inside
      obtain ⟨to', named, count⟩ := archiveMessage_named row recipient
      refine ⟨count ▸ version, fun b has => .inr ⟨r, ?_, bodies b (archiveMessage_carries has)⟩⟩
      rw [to', named]
      exact before
  · intro p m member
    have ok := sound.passes p m member
    exact ⟨ok.1, ok.2, fun b has => .inl ⟨m, .inr ⟨p, member⟩, rfl, rfl, has⟩⟩
  · intro e member
    obtain ⟨before, unnamed⟩ := (mem_owed_quiet quiet).mp member
    have ok := faithful.owed e before
    obtain ⟨place, other, messageBox, messageId, sender, body⟩ := e
    cases place with
    | mailbox =>
      obtain ⟨r, found, live, box, from', has⟩ := ok
      by_cases own : other = recipient
      · subst own
        rcases stays messageId r found live with ⟨event, inside, names⟩ | ⟨r', found', live', box', from'', has'⟩
        · exact absurd names (unnamed event inside)
        · refine ⟨r', ?_, live', box'.trans box, from''.trans from', has'.trans has⟩
          simpa only [Hubs.enqueueAfter, Hubs.setMailbox, Function.update_self] using found'
      · refine ⟨r, ?_, live, box, from', has⟩
        simpa only [Hubs.enqueueAfter, Hubs.setMailbox, Function.update_of_ne own] using found
    | database => exact ⟨ok.1, fun handed' => ok.2 (same _ _ handed')⟩

end HubStep

/-- The hubs change in nothing the invariant reads but the passes. -/
theorem Faithful.setPass {db : Database.Store} {c : WorldConfig} (faithful : Faithful db c) (p : Nat) (pass : Pass)
    (ok : ∀ m ∈ pass.messages, Enqueued c.state.hubs m.recipient m.messageId ∧ m.version ≤ 2 ∧
      ∀ b, m.body = some b → Carried c.state.hubs m.recipient m.messageId b) :
    Faithful db { c with state := { c.state with hubs := c.state.hubs.setPass p pass } } := by
  refine ⟨faithful.sound.narrow (fun _ _ handed => handed) (fun _ _ handed => handed) rfl ?_ ?_ ?_,
    fun e member => faithful.owed e member⟩
  · exact fun recipient id r found => ⟨r, found, (faithful.sound.held recipient id r found).2, fun b has => has⟩
  · exact fun m member => ⟨faithful.sound.queue m member, fun b has => .inl ⟨m, .inl member, rfl, rfl, has⟩⟩
  · intro q m member
    by_cases same : q = p
    · subst same
      simp only [Hubs.setPass, Function.update_self] at member
      exact ok m member
    · simp only [Hubs.setPass, Function.update_of_ne same] at member
      have before := faithful.sound.passes q m member
      exact ⟨before.1, before.2, fun b has => .inl ⟨m, .inr ⟨q, member⟩, rfl, rfl, has⟩⟩

theorem RowShape.acknowledged {r : Row} (shape : RowShape r) (ids : List String) (nowMs : Nat) :
    RowShape (ackRow ids nowMs r) ∧ ∀ b, (ackRow ids nowMs r).body = some b → r.body = some b := by
  unfold ackRow
  split
  · rename_i moved
    have bodies : ∀ b, (r.acknowledge nowMs).body = some b → r.body = some b := by
      intro b has
      simp only [Row.acknowledge] at has
      split at has
      · cases has
      · exact has
    have one := (shape.live moved.2).1
    refine ⟨⟨?_, fun live => ?_, fun b has => shape.sized b (bodies b has)⟩, bodies⟩
    · simp only [Row.acknowledge]
      omega
    · cases live
  · exact ⟨shape, fun b has => has⟩

theorem changes_quiet {recipient : String} {collision : Bool} {before after : Mailbox.Store} {event : HubEvent}
    (member : event ∈ changes recipient collision before after) : (WorldEvent.hub event).stores = false := by
  obtain ⟨r, -, seen⟩ := List.mem_filterMap.mp member
  split at seen
  · cases Option.some.inj seen
    rfl
  · split at seen
    · cases Option.some.inj seen
      rfl
    · cases seen

theorem Faithful.acknowledge {db : Database.Store} {c : WorldConfig} (faithful : Faithful db c)
    (recipient : String) (ids : List String) (retry : Bool) (nowMs : Nat) :
    Faithful db ⟨(hubWorldStep c.state (.acknowledge recipient ids retry nowMs)).1,
      c.log ++ (hubWorldStep c.state (.acknowledge recipient ids retry nowMs)).2⟩ := by
  have after (id : String) := acknowledge_find? (c.state.hubs.mailboxes recipient) ids retry nowMs id
  refine faithful.evolve recipient (Mailbox.acknowledge (c.state.hubs.mailboxes recipient) ids retry nowMs).2 _ _
    (fun id r' found => ?_) (fun row member => ?_) (fun id r found live => ?_) (fun event member => ?_)
  · rw [after] at found
    obtain ⟨r, before, rfl⟩ := Option.map_eq_some_iff.mp found
    exact ⟨r, before, (faithful.sound.held recipient id r before).2.acknowledged ids nowMs⟩
  · obtain ⟨r, found, -, same⟩ := mem_archiveRows.mp member
    exact ⟨r, found, same⟩
  · by_cases named : id ∈ ids
    · exact .inl ⟨.acknowledging recipient ids, by simp [hubWorldStep, acknowledgingOf], rfl, named⟩
    · refine .inr ⟨r, ?_, live, rfl, rfl, rfl⟩
      have other : r.messageId ∉ ids := Store.messageId_of_find? found ▸ named
      rw [after, found, Option.map_some, ackRow, if_neg (fun both => other both.1)]
  · simp only [hubWorldStep, acknowledgingOf, hubStep, acknowledgeStep, List.mem_append, List.mem_singleton,
      List.mem_map] at member
    rcases member with rfl | ⟨event, inside, rfl⟩
    · rfl
    · exact changes_quiet inside

theorem Faithful.replay {db : Database.Store} {c : WorldConfig} (faithful : Faithful db c) (recipient : String)
    (nowMs : Nat) :
    Faithful db ⟨(hubWorldStep c.state (.replay recipient nowMs)).1,
      c.log ++ (hubWorldStep c.state (.replay recipient nowMs)).2⟩ := by
  have after (id : String) := takeOwedDue_find? (c.state.hubs.mailboxes recipient) nowMs id
  refine faithful.evolve recipient (takeOwedDue (c.state.hubs.mailboxes recipient) nowMs).2 _ _
    (fun id r' found => ?_) (fun row member => ?_) (fun id r found live => ?_)
    (fun event member => by simp [hubWorldStep, acknowledgingOf, hubStep, replayStep] at member)
  · rw [after] at found
    obtain ⟨r, before, rfl⟩ := Option.map_eq_some_iff.mp found
    have shape := (faithful.sound.held recipient id r before).2
    refine ⟨r, before, ?_⟩
    split
    · exact ⟨⟨shape.version, shape.live, shape.sized⟩, fun b has => has⟩
    · exact ⟨shape, fun b has => has⟩
  · obtain ⟨r, due, rfl⟩ := List.mem_map.mp member
    exact ⟨{ r with enqueuedAt := some nowMs },
      by rw [after, mem_owedDue due, Option.map_some, if_pos ⟨r, due, rfl⟩], rfl⟩
  · refine .inr ⟨_, by rw [after, found, Option.map_some], ?_⟩
    split <;> exact ⟨live, rfl, rfl, rfl⟩

/-- A confirmation, whatever it says, leaves a live row listed. -/
theorem Faithful.doneOne {db : Database.Store} {c : WorldConfig} (faithful : Faithful db c) (recipient : String)
    (d : Done) :
    Faithful db ⟨c.state.setMailbox recipient (archiveDoneOne (c.state.hubs.mailboxes recipient) d),
      c.log ++ (changes recipient d.collision (c.state.hubs.mailboxes recipient)
        (archiveDoneOne (c.state.hubs.mailboxes recipient) d)).map .hub⟩ := by
  have after (id : String) := archiveDoneOne_find? (c.state.hubs.mailboxes recipient) d id
  have moved := faithful.evolve recipient (archiveDoneOne (c.state.hubs.mailboxes recipient) d) []
    ((changes recipient d.collision (c.state.hubs.mailboxes recipient)
        (archiveDoneOne (c.state.hubs.mailboxes recipient) d)).map .hub)
    (fun id r' found => ?_) (by simp) (fun id r found live => ?_) (fun event member => ?_)
  · simpa [Hubs.enqueueAfter, World.setMailbox] using moved
  · rw [after] at found
    split at found
    · obtain ⟨r, before, moved⟩ := Option.bind_eq_some_iff.mp found
      have shape := (faithful.sound.held recipient id r before).2
      refine ⟨r, before, ?_⟩
      unfold doneRow at moved
      split at moved
      · cases moved
      · split at moved
        · cases Option.some.inj moved
          exact ⟨⟨shape.version, shape.live, shape.sized⟩, fun b has => has⟩
        · split at moved
          · cases Option.some.inj moved
            exact ⟨⟨shape.version, shape.live, shape.sized⟩, fun b has => has⟩
          · cases Option.some.inj moved
            simp only
            split
            · rename_i acked
              refine ⟨⟨shape.version, fun live => absurd (acked.symm.trans live) (by decide), ?_⟩, ?_⟩ <;>
                exact fun b has => by cases has
            · exact ⟨⟨shape.version, shape.live, shape.sized⟩, fun b has => has⟩
    · exact ⟨r', found, (faithful.sound.held recipient id r' found).2, fun b has => has⟩
  · right
    rw [after]
    split
    · rw [found, Option.bind_some, doneRow, if_neg (fun both => by rw [live] at both; cases both.1)]
      split
      · exact ⟨_, rfl, live, rfl, rfl, rfl⟩
      · split
        · exact ⟨_, rfl, live, rfl, rfl, rfl⟩
        · exact ⟨_, rfl, live, rfl, rfl, if_neg (fun acked => by rw [live] at acked; cases acked)⟩
    · exact ⟨r, found, live, rfl, rfl, rfl⟩
  · obtain ⟨event, inside, rfl⟩ := List.mem_map.mp member
    exact changes_quiet inside

theorem Faithful.takeDones {db : Database.Store} {c : WorldConfig} (faithful : Faithful db c) (recipient : String)
    (done : List Done) :
    Faithful db ⟨c.state.setMailbox recipient (takeDones recipient done (c.state.hubs.mailboxes recipient)).1,
      c.log ++ (Relay.takeDones recipient done (c.state.hubs.mailboxes recipient)).2.map .hub⟩ := by
  induction done generalizing c with
  | nil => simpa [Relay.takeDones, World.setMailbox, Hubs.setMailbox] using faithful
  | cons d rest ih =>
    have tail := ih (faithful.doneOne recipient d)
    simpa [Relay.takeDones, World.setMailbox, Hubs.setMailbox] using tail

end MessageRelay.Relay
