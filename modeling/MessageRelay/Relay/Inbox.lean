import MessageRelay.Relay.Merged
import MessageRelay.Archive.Writes

/-! What the relay owes a recipient, stated without hubs, queues or archives: every row answered
stored, from either store, until that recipient acknowledges its id. Beside it the condition on the
senders' ids under which the relay keeps that promise. -/

namespace MessageRelay.Relay
open MessageRelay.Library MessageRelay.Mailbox MessageRelay.Archive MessageRelay.Database

abbrev WorldConfig := Config World WorldEvent

inductive Place where
  | mailbox
  | database
  deriving DecidableEq, Repr

/-- A message owed to its recipient. -/
structure Entry where
  place : Place
  recipient : String
  messageBox : String
  messageId : String
  sender : String
  body : String
  deriving DecidableEq, Repr

/-- One event taken into what is owed. -/
def note (owed : List Entry) : WorldEvent → List Entry
  | .hub (.stored recipient _ row) =>
    owed ++ [⟨.mailbox, recipient, row.messageBox, row.messageId, row.sender, row.body⟩]
  | .paid recipient messageBox messageId sender body =>
    owed ++ [⟨.database, recipient, messageBox, messageId, sender, body⟩]
  | .acknowledging recipient ids => owed.filter (fun e => ¬ (e.recipient = recipient ∧ e.messageId ∈ ids))
  | .acknowledged recipient ids => owed.filter (fun e => ¬ (e.recipient = recipient ∧ e.messageId ∈ ids))
  | _ => owed

/-- The rows D1 held live in their recipients' boxes before the run. -/
def kvEntries (db : Database.Store) : List Entry :=
  db.messages.rows.filterMap (fun r =>
    if r.acknowledgedAt = none then
      (db.boxes.rows.find? (fun b => b.messageBoxId = r.messageBoxId && b.identityKey = r.recipient)).map
        (fun b => ⟨.database, r.recipient, b.boxType, r.messageId, r.sender, r.body⟩)
    else none)

/-- What is owed after a log. -/
def owed (db : Database.Store) (log : List WorldEvent) : List Entry := log.foldl note (kvEntries db)

/-- The entry stands in its store's order for its recipient with its own sender and body, and is
listed once the limit and the byte budget reach it there. -/
def Shown (w : Hubs) (e : Entry) : Prop :=
  ∃ row : MessageDbRow, row.messageId = some e.messageId ∧ row.sender = some e.sender ∧ row.body = some e.body ∧
    match e.place with
    | .database => ∃ ahead behind, d1Live w e.recipient e.messageBox = ahead ++ row :: behind ∧
        (Reached ahead row → row ∈ handleList w e.recipient e.messageBox)
    | .mailbox => ∃ ahead behind, mailboxLive w e.recipient e.messageBox = ahead ++ row :: behind ∧
        (Reached (visible w e.recipient e.messageBox ++ ahead) row → row ∈ handleList w e.recipient e.messageBox)

/-- A row in D1 before and after has the same sender and recipient, and the same body unless it was
empty. -/
def RowsUnaltered (before after : Database.Store) : Prop :=
  ∀ id r r', before.row? id = some r → after.row? id = some r' →
    r'.sender = r.sender ∧ r'.recipient = r.recipient ∧ (r.body ≠ "" → r'.body = r.body)

/-- Some archive message of the id was handed to the queue for the recipient. -/
def Enqueued (w : Hubs) (recipient id : String) : Prop :=
  ∃ m ∈ w.queue, m.recipient = recipient ∧ m.messageId = id

/-- D1 holds the id for the recipient acknowledged, at the last version there is. -/
def Sealed (db : Database.Store) (recipient id : String) : Prop :=
  ∃ r, db.row? id = some r ∧ r.recipient = recipient ∧ 2 ≤ r.archiveVersion ∧ r.acknowledgedAt ≠ none

instance (w : Hubs) (recipient id : String) : Decidable (Enqueued w recipient id) :=
  inferInstanceAs (Decidable (∃ m ∈ w.queue, m.recipient = recipient ∧ m.messageId = id))

instance (db : Database.Store) (recipient id : String) : Decidable (Sealed db recipient id) :=
  decidable_of_iff ((db.row? id).any (fun r =>
      decide (r.recipient = recipient ∧ 2 ≤ r.archiveVersion ∧ r.acknowledgedAt ≠ none)) = true) (by
    cases found : db.row? id <;> simp [Sealed, found])

/-- A store in the mailbox meets the end of an earlier row's life under its id, or an id nothing of
this recipient's was ever under in either store. -/
def MailboxIdFresh (w : Hubs) (recipient id : String) : Prop :=
  Sealed w.db recipient id ∨
    (∀ r, w.db.row? id = some r → r.recipient ≠ recipient) ∧ ¬ Enqueued w recipient id

instance (w : Hubs) (recipient id : String) : Decidable (MailboxIdFresh w recipient id) :=
  decidable_of_iff (Sealed w.db recipient id ∨
      (w.db.row? id).all (fun r => decide (r.recipient ≠ recipient)) = true ∧ ¬ Enqueued w recipient id) (by
    cases found : w.db.row? id <;> simp [MailboxIdFresh, found])

/-- A paid row meets nothing of its recipient's under its id in the mailbox or on its way to D1. -/
def PaidIdFresh (w : Hubs) (recipient id : String) : Prop :=
  (w.mailboxes recipient).find? id = none ∧ ¬ Enqueued w recipient id

instance (w : Hubs) (recipient id : String) : Decidable (PaidIdFresh w recipient id) :=
  inferInstanceAs (Decidable (_ ∧ _))

/-- None of the rows an acknowledgment is about to take in D1 was acknowledged by the archive since
it asked. -/
def AckTask.Current (db : Database.Store) : AckTask → Prop
  | .live recipient ids => ∀ id ∈ ids, ¬ Sealed db recipient id
  | _ => True

instance (db : Database.Store) (task : AckTask) : Decidable (task.Current db) :=
  match task with
  | .live recipient ids => inferInstanceAs (Decidable (∀ id ∈ ids, ¬ Sealed db recipient id))
  | .idle => .isTrue trivial
  | .missing _ _ => .isTrue trivial

/-- The condition on one step: a store takes a fresh id, and an acknowledgment's D1 part meets no row
the archive acknowledged meanwhile. -/
def IdsFresh (c : WorldConfig) : WorldInput → Prop
  | .hub (.insert recipient row retry nowMs) =>
    (Mailbox.insert (c.state.hubs.mailboxes recipient) row retry nowMs Bounds.ruled).1 = .stored →
      MailboxIdFresh c.state.hubs recipient row.messageId
  | .paid recipient _ messageId _ _ _ _ =>
    c.state.hubs.db.row? messageId = none → PaidIdFresh c.state.hubs recipient messageId
  | .ackWrite t _ _ => (c.state.acks t).Current c.state.hubs.db
  | _ => True

instance (c : WorldConfig) (input : WorldInput) : Decidable (IdsFresh c input) :=
  match input with
  | .hub (.insert recipient row retry nowMs) =>
    inferInstanceAs (Decidable ((Mailbox.insert (c.state.hubs.mailboxes recipient) row retry nowMs Bounds.ruled).1 =
      .stored → MailboxIdFresh c.state.hubs recipient row.messageId))
  | .paid recipient _ messageId _ _ _ _ =>
    inferInstanceAs (Decidable (c.state.hubs.db.row? messageId = none → PaidIdFresh c.state.hubs recipient messageId))
  | .ackWrite t _ _ => inferInstanceAs (Decidable ((c.state.acks t).Current c.state.hubs.db))
  | .hub (.acknowledge ..) | .hub (.replay ..) | .hub (.deliver ..) | .hub (.readBodies ..) | .hub (.plan ..)
  | .hub (.write ..) | .hub (.tell ..) | .hub (.abandon ..) => .isTrue trivial
  | .ackBegin .. | .ackLive .. | .listBegin .. | .listBox .. | .listD1 .. | .listFinish .. | .ackFail ..
  | .listFail .. => .isTrue trivial

/-! The invariant. -/

/-- The messages a pass carries. -/
def Pass.messages : Pass → List ArchiveMessage
  | .reading batch => batch
  | .planned batch _ => batch
  | _ => []

/-- A body under way for an id: in the queue, in a pass or in the mailbox. -/
def Carried (w : Hubs) (recipient id body : String) : Prop :=
  (∃ m, (m ∈ w.queue ∨ ∃ p, m ∈ (w.passes p).messages) ∧ m.recipient = recipient ∧ m.messageId = id ∧
    m.body = some body) ∨
    ∃ r, (w.mailboxes recipient).find? id = some r ∧ r.body = some body

/-- One body is under way for the id, and D1's row carries it or none. -/
def Agreed (w : Hubs) (recipient id : String) : Prop :=
  ∃ body, (∀ b, Carried w recipient id b → b = body) ∧
    ∀ r, w.db.row? id = some r → r.recipient = recipient → r.body = body ∨ r.body = ""

/-- A row is live at version 1 with its body, or acknowledged at version 2. -/
structure RowShape (r : Row) : Prop where
  version : r.version ≤ 2
  live : r.state = .live → r.version = 1 ∧ r.body.isSome
  sized : Sized r

structure Sound (w : Hubs) : Prop where
  held : ∀ recipient id r, (w.mailboxes recipient).find? id = some r → Enqueued w recipient id ∧ RowShape r
  queue : ∀ m ∈ w.queue, m.version ≤ 2
  passes : ∀ p, ∀ m ∈ (w.passes p).messages, Enqueued w m.recipient m.messageId ∧ m.version ≤ 2
  agreed : ∀ recipient id, ¬ Enqueued w recipient id ∨ Sealed w.db recipient id ∨ Agreed w recipient id

/-- An owed entry is in its store as it was stored. -/
def OwedOk (w : Hubs) (e : Entry) : Prop :=
  match e.place with
  | .mailbox => ∃ r, (w.mailboxes e.recipient).find? e.messageId = some r ∧ r.state = .live ∧
      r.messageBox = e.messageBox ∧ r.sender = e.sender ∧ r.body = some e.body
  | .database => (∃ r, w.db.row? e.messageId = some r ∧ r.recipient = e.recipient ∧ r.sender = e.sender ∧
      r.body = e.body ∧ r.acknowledgedAt = none ∧
      findMessageBox w.db e.recipient e.messageBox = some r.messageBoxId) ∧
      ¬ Enqueued w e.recipient e.messageId

structure Faithful (db : Database.Store) (c : WorldConfig) : Prop where
  sound : Sound c.state.hubs
  owed : ∀ e ∈ owed db c.log, OwedOk c.state.hubs e

theorem Sound.enqueued_of_carried {w : Hubs} (sound : Sound w) {recipient id body : String}
    (carried : Carried w recipient id body) : Enqueued w recipient id := by
  rcases carried with ⟨m, there | ⟨p, there⟩, rfl, rfl, -⟩ | ⟨r, found, -⟩
  · exact ⟨m, there, rfl, rfl⟩
  · exact (sound.passes p m there).1
  · exact (sound.held recipient id r found).1

theorem Sound.measured {w : Hubs} (sound : Sound w) (recipient : String) :
    MeasuredRows (w.mailboxes recipient) := by
  intro r member live
  have shape := (sound.held recipient _ r (((w.mailboxes recipient).mem_rows_iff r).mp member)).2
  exact ⟨(shape.live live).2, shape.sized⟩

/-- What is in its store as it was stored is shown. -/
theorem OwedOk.shown {w : Hubs} (sound : Sound w) {e : Entry} (ok : OwedOk w e) : Shown w e := by
  obtain ⟨place, recipient, messageBox, messageId, sender, body⟩ := e
  cases place with
  | mailbox =>
    obtain ⟨r, found, live, box, from', has⟩ := ok
    have member : r.listed ∈ mailboxLive w recipient messageBox := by
      refine List.mem_map_of_mem (List.mem_filter.mpr ⟨?_, by simpa using ⟨box, live⟩⟩)
      exact ((w.mailboxes recipient).rows.find?_eq_some messageId r).mp found |>.1
    obtain ⟨ahead, behind, all⟩ := List.append_of_mem member
    refine ⟨r.listed, congrArg some (Store.messageId_of_find? found), congrArg some from', has, ahead, behind,
      all, mailbox_row_listed (sound.measured recipient) all⟩
  | database =>
    obtain ⟨⟨r, found, own, from', has, unacked, boxed⟩, fresh⟩ := ok
    have named : r.messageId = messageId := Table.key_of_find? found
    have member : r.listed ∈ d1Live w recipient messageBox := by
      simp only [d1Live, boxed]
      refine List.mem_map_of_mem (List.mem_filter.mpr ⟨?_, by simpa using ⟨own, unacked⟩⟩)
      exact (w.db.messages.find?_eq_some messageId r).mp found |>.1
    have hidden : unheld (w.mailboxes recipient) r.listed = true := by
      cases there : (w.mailboxes recipient).find? messageId with
      | none => simp [unheld, MessageRow.listed, named, there]
      | some row => exact absurd (sound.held recipient messageId row there).1 fresh
    obtain ⟨ahead, behind, all⟩ := List.append_of_mem member
    exact ⟨r.listed, congrArg some named, congrArg some from', congrArg some has, ahead, behind, all,
      database_row_listed all hidden⟩

end MessageRelay.Relay
