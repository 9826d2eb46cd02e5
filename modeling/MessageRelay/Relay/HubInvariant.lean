import MessageRelay.Relay.Hubs
import MessageRelay.Mailbox.Rows
import MessageRelay.Archive.Truthful

/-! Whether a body leaves the hub only once the archive holds it: the property, the condition on
each step and the invariant. The hub deletes its copy on the word of a confirmation, so every
confirmation in flight has to be truthful and D1's row under a settled id has to carry the body the
mailbox stored. -/

namespace MessageRelay.Relay
open MessageRelay.Library MessageRelay.Mailbox MessageRelay.Archive MessageRelay.Database

abbrev HubConfig := Config Hubs HubEvent

/-- Every row a mailbox stored whose copy is gone, deleted on a confirmation that names no
collision or its body set to NULL, is in D1 for that recipient with that body. -/
def NoBodyLost (c : HubConfig) : Prop :=
  ∀ recipient seq row, .stored recipient seq row ∈ c.log →
    (.deleted recipient seq false ∈ c.log ∨ .bodyDropped recipient seq ∈ c.log) →
    ∃ r, c.state.db.row? row.messageId = some r ∧ r.recipient = recipient ∧ r.body = row.body

/-- D1's row under a new row's id, if it is this recipient's, was never written by the archive and
gives way to the new body. -/
def StoresFresh (db : Database.Store) (recipient : String) (row : NewRow) : Prop :=
  ∀ r ∈ db.row? row.messageId, r.recipient = recipient → r.archiveVersion = 0 ∧ row.body ≠ ""

instance (db : Database.Store) (recipient : String) (row : NewRow) : Decidable (StoresFresh db recipient row) :=
  decidable_of_iff ((db.row? row.messageId).all (fun r =>
    r.recipient ≠ recipient ∨ r.archiveVersion = 0 ∧ row.body ≠ "") = true) (by
    cases found : db.row? row.messageId <;> simp [StoresFresh, found, ← imp_iff_not_or])

/-- No message of a batch about to be planned is overshadowed. -/
def Pass.Clear (db : Database.Store) : Pass → Prop
  | .reading batch => ∀ m ∈ batch, ¬ Overshadowed db batch m
  | _ => True

/-- Nobody else holds the id of a message about to be written. -/
def Pass.Unraced (db : Database.Store) : Pass → Prop
  | .planned batch verdicts => ∀ m ∈ applied batch verdicts, Unclaimed db m
  | _ => True

instance (db : Database.Store) (pass : Pass) : Decidable (pass.Clear db) :=
  match pass with
  | .reading batch => inferInstanceAs (Decidable (∀ m ∈ batch, ¬ Overshadowed db batch m))
  | .idle | .planned .. | .telling .. => .isTrue trivial

instance (db : Database.Store) (pass : Pass) : Decidable (pass.Unraced db) :=
  match pass with
  | .planned batch verdicts => inferInstanceAs (Decidable (∀ m ∈ applied batch verdicts, Unclaimed db m))
  | .idle | .reading .. | .telling .. => .isTrue trivial

/-- The condition on one step. A store meets no row the archive wrote under its id for the same
recipient, a planned batch has no overshadowed message, and at the write nobody else holds the id
of an applied message. -/
def ArchiveCareful (c : HubConfig) : HubInput → Prop
  | .insert recipient row retry nowMs =>
    (Mailbox.insert (c.state.mailboxes recipient) row retry nowMs Bounds.ruled).1 = .stored →
      StoresFresh c.state.db recipient row
  | .plan p => (c.state.passes p).Clear c.state.db
  | .write p _ _ => (c.state.passes p).Unraced c.state.db
  | _ => True

instance (c : HubConfig) (input : HubInput) : Decidable (ArchiveCareful c input) :=
  match input with
  | .insert recipient row retry nowMs =>
    inferInstanceAs (Decidable ((Mailbox.insert (c.state.mailboxes recipient) row retry nowMs Bounds.ruled).1 =
      .stored → StoresFresh c.state.db recipient row))
  | .plan p => inferInstanceAs (Decidable ((c.state.passes p).Clear c.state.db))
  | .write p _ _ => inferInstanceAs (Decidable ((c.state.passes p).Unraced c.state.db))
  | .acknowledge .. | .replay .. | .deliver .. | .readBodies .. | .tell .. | .abandon .. => .isTrue trivial

/-- D1 holds the id for the recipient, written by the archive. -/
def Settled (db : Database.Store) (recipient id : String) : Prop :=
  ∃ r, db.row? id = some r ∧ r.recipient = recipient ∧ 1 ≤ r.archiveVersion

/-- D1 holds the id for another recipient. -/
def Foreign (db : Database.Store) (recipient id : String) : Prop :=
  ∃ r, db.row? id = some r ∧ r.recipient ≠ recipient

theorem Settled.advance {before after : Database.Store} {recipient id : String}
    (settled : Settled before recipient id) (later : Advances before after) : Settled after recipient id := by
  obtain ⟨r, found, own, written⟩ := settled
  obtain ⟨r', found', same, newer⟩ := later id r found
  exact ⟨r', found', same.trans own, written.trans newer⟩

theorem Foreign.advance {before after : Database.Store} {recipient id : String}
    (foreign : Foreign before recipient id) (later : Advances before after) : Foreign after recipient id := by
  obtain ⟨r, found, other⟩ := foreign
  obtain ⟨r', found', same, -⟩ := later id r found
  exact ⟨r', found', same ▸ other⟩

/-- A body some mailbox stored under the id for the recipient. -/
def Origin (log : List HubEvent) (recipient id body : String) : Prop :=
  ∃ seq row, .stored recipient seq row ∈ log ∧ row.messageId = id ∧ row.body = body

/-- A mailbox row comes from its store, and has given its body up only to D1. -/
structure RowOk (db : Database.Store) (log : List HubEvent) (recipient : String) (r : Row) : Prop where
  origin : ∃ row, .stored recipient r.seq row ∈ log ∧ row.messageId = r.messageId ∧
    (r.body = some row.body ∨ r.body = none ∧ Settled db recipient r.messageId)
  archived : 0 < r.archivedVersion → Settled db recipient r.messageId
  counted : 1 ≤ r.version

/-- A queue message carries a stored body, or its hub does, or D1 has it already. -/
structure MessageOk (db : Database.Store) (log : List HubEvent) (m : ArchiveMessage) : Prop where
  counted : 1 ≤ m.version
  body : ∀ b, m.body = some b → Origin log m.recipient m.messageId b
  bodiless : m.body = none → m.bodyInHub = true ∨ Settled db m.recipient m.messageId

/-- A confirmation says what D1 holds. -/
def DoneOk (db : Database.Store) (recipient : String) (d : Done) : Prop :=
  if d.collision = true then Foreign db recipient d.messageId else Settled db recipient d.messageId

def PassOk (db : Database.Store) (log : List HubEvent) : Pass → Prop
  | .idle => True
  | .reading batch => ∀ m ∈ batch, MessageOk db log m
  | .planned batch verdicts =>
    (∀ m ∈ batch, MessageOk db log m ∧ needsHub m = false) ∧
      ∃ held, verdicts = plan batch held ∧ AheadOf db held ∧ ∀ m ∈ batch, ¬ Shadowed held batch m
  | .telling dones => ∀ entry ∈ dones, ∀ d ∈ entry.2, DoneOk db entry.1 d

/-- The invariant of the hubs, the queue and the consumers. -/
structure Kept (c : HubConfig) : Prop where
  rows : ∀ recipient id r, (c.state.mailboxes recipient).find? id = some r → RowOk c.state.db c.log recipient r
  /-- A stored row is still there, or its id is D1's. -/
  stored : ∀ recipient seq row, .stored recipient seq row ∈ c.log →
    (∃ r, (c.state.mailboxes recipient).find? row.messageId = some r ∧ r.seq = seq) ∨
      Settled c.state.db recipient row.messageId ∨ Foreign c.state.db recipient row.messageId
  /-- Two stores under one id agree on the body, unless the id is another's. -/
  agree : ∀ recipient seq row seq' row', .stored recipient seq row ∈ c.log →
    .stored recipient seq' row' ∈ c.log → row.messageId = row'.messageId →
    row.body = row'.body ∨ Foreign c.state.db recipient row.messageId
  /-- What the archive wrote under a stored id is the stored body. -/
  written : ∀ recipient seq row r, .stored recipient seq row ∈ c.log →
    c.state.db.row? row.messageId = some r → r.recipient = recipient → 1 ≤ r.archiveVersion → r.body = row.body
  /-- An empty body never waits on a row the archive has not written. -/
  emptyBody : ∀ recipient seq row r, .stored recipient seq row ∈ c.log → row.body = "" →
    c.state.db.row? row.messageId = some r → r.recipient = recipient → 1 ≤ r.archiveVersion
  places : ∀ recipient seq row, .stored recipient seq row ∈ c.log → seq < (c.state.mailboxes recipient).nextSeq
  unique : ∀ recipient seq row row', .stored recipient seq row ∈ c.log →
    .stored recipient seq row' ∈ c.log → row = row'
  /-- A copy is given up only under a settled id. -/
  gone : ∀ recipient seq, (.deleted recipient seq false ∈ c.log ∨ .bodyDropped recipient seq ∈ c.log) →
    ∃ row, .stored recipient seq row ∈ c.log ∧ Settled c.state.db recipient row.messageId
  queue : ∀ m ∈ c.state.queue, MessageOk c.state.db c.log m
  passes : ∀ p, PassOk c.state.db c.log (c.state.passes p)

theorem Kept.noBodyLost {c : HubConfig} (kept : Kept c) : NoBodyLost c := by
  intro recipient seq row stored gone
  obtain ⟨row', stored', r, found, own, written⟩ := kept.gone recipient seq gone
  cases kept.unique recipient seq row row' stored stored'
  exact ⟨r, found, own, kept.written recipient seq row r stored found own written⟩

/-! The predicates over a longer log and a later D1. -/

theorem Origin.mono {log more : List HubEvent} {recipient id body : String}
    (origin : Origin log recipient id body) : Origin (log ++ more) recipient id body := by
  obtain ⟨seq, row, stored, rest⟩ := origin
  exact ⟨seq, row, List.mem_append_left _ stored, rest⟩

section Later
variable {before after : Database.Store} {log : List HubEvent} (later : Advances before after)
  (more : List HubEvent)
include later

theorem RowOk.advance {recipient : String} {r : Row} (ok : RowOk before log recipient r) :
    RowOk after (log ++ more) recipient r := by
  obtain ⟨row, stored, named, body⟩ := ok.origin
  exact ⟨⟨row, List.mem_append_left _ stored, named, body.imp_right (.imp_right (·.advance later))⟩,
    fun positive => (ok.archived positive).advance later, ok.counted⟩

theorem MessageOk.advance {m : ArchiveMessage} (ok : MessageOk before log m) : MessageOk after (log ++ more) m :=
  ⟨ok.counted, fun b has => (ok.body b has).mono, fun none => (ok.bodiless none).imp_right (·.advance later)⟩

theorem DoneOk.advance {recipient : String} {d : Done} (ok : DoneOk before recipient d) :
    DoneOk after recipient d := by
  unfold DoneOk at ok ⊢
  split
  · rename_i collision
    rw [if_pos collision] at ok
    exact ok.advance later
  · rename_i collision
    rw [if_neg collision] at ok
    exact ok.advance later

theorem PassOk.advance {pass : Pass} (ok : PassOk before log pass) : PassOk after (log ++ more) pass := by
  cases pass with
  | idle => exact ok
  | reading batch => exact fun m member => (ok m member).advance later more
  | planned batch verdicts =>
    obtain ⟨messages, held, planned, ahead, clear⟩ := ok
    refine ⟨fun m member => ⟨(messages m member).1.advance later more, (messages m member).2⟩, held, planned, ?_,
      clear⟩
    intro id h known
    obtain ⟨r, found, same, older⟩ := ahead id h known
    obtain ⟨r', found', same', newer⟩ := later id r found
    exact ⟨r', found', same'.trans same, older.trans newer⟩
  | telling dones => exact fun entry member d inside => (ok entry member d inside).advance later

end Later

/-- A consumer's pass moves: nothing else of the invariant looks at it. -/
theorem Kept.setPass {c : HubConfig} (kept : Kept c) (p : Nat) (pass : Pass)
    (ok : PassOk c.state.db c.log pass) : Kept { c with state := c.state.setPass p pass } := by
  refine ⟨kept.rows, kept.stored, kept.agree, kept.written, kept.emptyBody, kept.places, kept.unique,
    kept.gone, kept.queue, fun q => ?_⟩
  by_cases same : q = p
  · subst same
    simpa [Hubs.setPass] using ok
  · simpa [Hubs.setPass, same] using kept.passes q

end MessageRelay.Relay
