import MessageRelay.Relay.HubInvariant
import MessageRelay.Relay.World

/-! The consumer's "gone": a message whose body stayed in the hub is dropped when the hub has no body any more,
taken to mean that the archive holds the change. The hub gives a body up on a confirmation or on an acknowledgment
after one, so the confirmations have to be true and none of an older version may overtake an acknowledgment. What D1
holds has to stay there, so no acknowledgment's D1 part may delete the row that stands for the body. -/

namespace MessageRelay.Relay
open MessageRelay.Library MessageRelay.Mailbox MessageRelay.Archive MessageRelay.Database

/-- The messages of a pass acknowledged as gone when the recipient's hub is read now: those the read takes out. -/
def gone (w : Hubs) (p : Nat) (recipient : String) : List ArchiveMessage :=
  match w.passes p with
  | .reading batch =>
    let ids := (batch.filter (fun m => needsHub m && m.recipient = recipient)).map ArchiveMessage.messageId
    batch.filter (fun m => (fillBodies recipient (archiveRows (w.mailboxes recipient) ids) [m]).isEmpty)
  | _ => []

theorem gone_congr {w w' : Hubs} {p : Nat} {recipient : String} (passes : w'.passes p = w.passes p)
    (mailbox : w'.mailboxes recipient = w.mailboxes recipient) : gone w' p recipient = gone w p recipient := by
  simp only [gone, passes, mailbox]

/-- A message is taken out when it asks this hub and the hub has no body under its id. -/
theorem fillBodies_isEmpty {recipient : String} {rows : List ArchiveRow} {m : ArchiveMessage} :
    (fillBodies recipient rows [m]).isEmpty = true ↔
      needsHub m = true ∧ m.recipient = recipient ∧ bodyFromHub m rows = none := by
  by_cases asks : needsHub m = true ∧ m.recipient = recipient
  · cases body : bodyFromHub m rows with
    | none => simp [fillBodies, asks, body]
    | some b => simp [fillBodies, asks, body]
  · simp only [fillBodies, List.filterMap_cons, if_neg asks, List.filterMap_nil, List.isEmpty_cons, Bool.false_eq_true,
      false_iff]
    exact fun all => asks ⟨all.1, all.2.1⟩

/-- D1 holds the id for the recipient at the version or a newer one. -/
def ArchivedAt (db : Database.Store) (recipient id : String) (version : Nat) : Prop :=
  ∃ r, db.row? id = some r ∧ r.recipient = recipient ∧ version ≤ r.archiveVersion

instance (db : Database.Store) (recipient id : String) (version : Nat) :
    Decidable (ArchivedAt db recipient id version) :=
  decidable_of_iff ((db.row? id).any (fun r => r.recipient = recipient ∧ version ≤ r.archiveVersion) = true) (by
    cases found : db.row? id <;> simp [ArchivedAt, found])

/-- Whatever a read would drop now is in D1 for its recipient at its version or a newer one. -/
def GoneArchived (w : Hubs) : Prop :=
  ∀ p recipient, ∀ m ∈ gone w p recipient, HeldFor w.db m

/-- The row's archive message is too long for the queue and leaves its body in the hub. -/
def leftInHub (recipient : String) (r : Row) : Bool := (archiveMessage (archiveRow r) recipient).bodyInHub

/-- A confirmation is true, and an acknowledged row hears only of its own version, unless D1 has that already. -/
structure ConfirmsRightly (db : Database.Store) (recipient : String) (d : Done) (r : Row) : Prop where
  truthful : d.collision = false → ArchivedAt db recipient d.messageId d.version
  current : r.state = .acknowledged →
    (d.collision = false ∧ r.version ≤ d.version) ∨ ArchivedAt db recipient d.messageId r.version

/-- Every confirmation of a list does, as they are taken, of a row that leaves its body in the hub. -/
def AllConfirmRightly (db : Database.Store) (recipient : String) : List Done → Mailbox.Store → Prop
  | [], _ => True
  | d :: rest, mb =>
    (∀ r, mb.find? d.messageId = some r → leftInHub recipient r = true → ConfirmsRightly db recipient d r) ∧
      AllConfirmRightly db recipient rest (archiveDoneOne mb d)

def TellsRightly (w : Hubs) : HubInput → Prop
  | .tell p true =>
    match w.passes p with
    | .telling ((recipient, done) :: _) => AllConfirmRightly w.db recipient done (w.mailboxes recipient)
    | _ => True
  | _ => True

/-- The hub has the message's body in a row that no confirmation has marked archived. -/
def StillInHub (w : Hubs) (m : ArchiveMessage) : Prop :=
  ∃ r, (w.mailboxes m.recipient).find? m.messageId = some r ∧ leftInHub m.recipient r = true ∧
    m.version ≤ r.version ∧ r.archivedVersion = 0

/-- The D1 part of an acknowledgment deletes no row that stands for a body handed over from the hub: the row's box is
retained, or the hub has the body still. -/
def DeletesRightly (prefixes : List String) (w : World) (t : Nat) : Prop :=
  match w.acks t with
  | .live recipient ids =>
    ∀ m ∈ w.hubs.queue, needsHub m = true → m.recipient = recipient → m.messageId ∈ ids →
      ∀ row, w.hubs.db.row? m.messageId = some row → row.recipient = recipient → m.version ≤ row.archiveVersion →
        inRetainedBox prefixes w.hubs.db row = true ∨ StillInHub w.hubs m
  | _ => True

/-- The condition on one step. -/
def KeepsChanges (prefixes : List String) (c : Config World WorldEvent) : WorldInput → Prop
  | .hub input => TellsRightly c.state.hubs input
  | .ackWrite t _ _ => DeletesRightly prefixes c.state t
  | _ => True

/-- D1 holds the change, or the hub still has its body. -/
def Reachable (w : Hubs) (m : ArchiveMessage) : Prop :=
  HeldFor w.db m ∨ ∃ r, (w.mailboxes m.recipient).find? m.messageId = some r ∧
    leftInHub m.recipient r = true ∧ m.version ≤ r.version

/-- A live row is at its first version, and one marked archived is in D1. -/
structure RowCounted (db : Database.Store) (recipient : String) (r : Row) : Prop where
  first : r.state = .live → r.version = 1
  archived : r.state = .live → leftInHub recipient r = true → 0 < r.archivedVersion →
    ArchivedAt db recipient r.messageId r.version

/-- What the hubs keep: no body is given up before D1 holds the change. -/
structure BodiesReachable (w : Hubs) : Prop where
  rows : ∀ recipient id r, (w.mailboxes recipient).find? id = some r → RowCounted w.db recipient r
  handed : ∀ m ∈ w.queue, needsHub m = true → Reachable w m
  reading : ∀ p batch, w.passes p = .reading batch → ∀ m ∈ batch, needsHub m = true → m ∈ w.queue

/-- The message of every live row was handed to the queue. -/
def LiveHanded (w : Hubs) : Prop :=
  ∀ recipient id r, (w.mailboxes recipient).find? id = some r → r.state = .live →
    archiveMessage (archiveRow r) recipient ∈ w.queue

theorem leftInHub_body {recipient : String} {r : Row} (left : leftInHub recipient r = true) : r.body.isSome := by
  unfold leftInHub at left
  rcases archiveMessage_cases (archiveRow r) recipient with same | ⟨there, -⟩
  · rw [same] at left
    cases left
  · exact there

theorem leftInHub_congr {recipient : String} {r r' : Row} (same : archiveRow r = archiveRow r') :
    leftInHub recipient r = leftInHub recipient r' := by
  rw [leftInHub, same, leftInHub]

theorem needsHub_of_leftInHub {recipient : String} {r : Row} (left : leftInHub recipient r = true) :
    needsHub (archiveMessage (archiveRow r) recipient) = true := by
  unfold leftInHub at left
  rcases archiveMessage_cases (archiveRow r) recipient with same | ⟨-, same⟩
  · rw [same] at left
    cases left
  · rw [same]
    rfl

theorem needsHub_archiveMessage {recipient : String} {r : Row}
    (needs : needsHub (archiveMessage (archiveRow r) recipient) = true) : leftInHub recipient r = true := by
  simp only [needsHub, Bool.and_eq_true] at needs
  exact needs.1

theorem ArchivedAt.older {db : Database.Store} {recipient id : String} {version newer : Nat}
    (held : ArchivedAt db recipient id newer) (le : version ≤ newer) : ArchivedAt db recipient id version := by
  obtain ⟨r, found, own, high⟩ := held
  exact ⟨r, found, own, le.trans high⟩

theorem ArchivedAt.advance {before after : Database.Store} {recipient id : String} {version : Nat}
    (held : ArchivedAt before recipient id version) (later : Advances before after) :
    ArchivedAt after recipient id version := by
  obtain ⟨r, found, own, high⟩ := held
  obtain ⟨r', found', same, newer⟩ := later id r found
  exact ⟨r', found', same.trans own, high.trans newer⟩

/-- An acknowledgment's message is longer than the store's. -/
theorem leftInHub_acknowledge {recipient : String} {r : Row} (left : leftInHub recipient r = true)
    (live : r.state = .live) (first : r.version = 1) (kept : r.archivedVersion = 0) (nowMs : Nat) :
    leftInHub recipient (r.acknowledge nowMs) = true := by
  have there : r.body.isSome := leftInHub_body left
  have long : archiveInlineMax < (inlineMessage (archiveRow r) recipient).jsonLength := by
    by_contra short
    rw [leftInHub, archiveMessage, if_neg (fun both => short both.1)] at left
    cases left
  have longer : (inlineMessage (archiveRow r) recipient).jsonLength ≤
      (inlineMessage (archiveRow (r.acknowledge nowMs)) recipient).jsonLength := by
    have digit : (Nat.repr 1).length = (Nat.repr 2).length := by decide
    simp [inlineMessage, archiveRow, Row.acknowledge, ArchiveMessage.jsonLength, jsonField, live, first, kept]
    omega
  have kept' : (archiveRow (r.acknowledge nowMs)).body.isSome := by
    simpa [archiveRow, Row.acknowledge, kept] using there
  rw [leftInHub, archiveMessage, if_pos ⟨long.trans_le longer, kept'⟩]

theorem Reachable.later {w w' : Hubs} {m : ArchiveMessage} (reachable : Reachable w m)
    (later : Advances w.db w'.db) (same : w'.mailboxes = w.mailboxes) : Reachable w' m := by
  rw [Reachable, same]
  exact reachable.imp_left (·.advance later)

/-- One hub moves: every row that leaves its body there does so still, or D1 has its version. -/
theorem BodiesReachable.setMailbox {w : Hubs} (ok : BodiesReachable w) {recipient : String} {mb : Mailbox.Store}
    (counted : ∀ id r, mb.find? id = some r → RowCounted w.db recipient r)
    (kept : ∀ id r, (w.mailboxes recipient).find? id = some r → leftInHub recipient r = true →
      ArchivedAt w.db recipient id r.version ∨
        ∃ r', mb.find? id = some r' ∧ leftInHub recipient r' = true ∧ r.version ≤ r'.version) :
    BodiesReachable (w.setMailbox recipient mb) := by
  refine ⟨fun other id r found => ?_, fun m member needs => ?_, ok.reading⟩
  · by_cases own : other = recipient
    · subst own
      simp only [Hubs.setMailbox, Function.update_self] at found
      exact counted id r found
    · simp only [Hubs.setMailbox, Function.update_of_ne own] at found
      exact ok.rows other id r found
  · rcases ok.handed m member needs with held | ⟨r, found, left, covers⟩
    · exact .inl held
    · by_cases own : m.recipient = recipient
      · subst own
        rcases kept m.messageId r found left with archived | ⟨r', found', left', newer⟩
        · exact .inl (archived.older covers)
        · refine .inr ⟨r', ?_, left', covers.trans newer⟩
          simpa only [Hubs.setMailbox, Function.update_self] using found'
      · refine .inr ⟨r, ?_, left, covers⟩
        simpa only [Hubs.setMailbox, Function.update_of_ne own] using found

/-- Rows a hub holds are handed to the queue. -/
theorem BodiesReachable.enqueueAfter {w : Hubs} (ok : BodiesReachable w) {recipient : String} {rows : List ArchiveRow}
    (read : ∀ row ∈ rows, ∃ r, (w.mailboxes recipient).find? r.messageId = some r ∧ archiveRow r = row) :
    BodiesReachable (w.enqueueAfter recipient rows) := by
  refine ⟨ok.rows, fun m member needs => ?_, fun p batch here m member needs =>
    List.mem_append_left _ (ok.reading p batch here m member needs)⟩
  rcases List.mem_append.mp member with before | new
  · exact ok.handed m before needs
  · obtain ⟨row, inside, rfl⟩ := List.mem_map.mp new
    obtain ⟨r, found, rfl⟩ := read row inside
    have left := needsHub_archiveMessage needs
    obtain ⟨toward, named, version⟩ := archiveMessage_named (archiveRow r) recipient
    refine .inr ⟨r, ?_, ?_, version.le⟩
    · rw [toward, named]
      exact found
    · rw [toward]
      exact left

theorem BodiesReachable.setPass {w : Hubs} (ok : BodiesReachable w) (p : Nat) (pass : Pass)
    (queued : ∀ batch, pass = .reading batch → ∀ m ∈ batch, needsHub m = true → m ∈ w.queue) :
    BodiesReachable (w.setPass p pass) := by
  refine ⟨ok.rows, ok.handed, fun q batch here => ?_⟩
  by_cases same : q = p
  · subst same
    simp only [Hubs.setPass, Function.update_self] at here
    exact queued batch here
  · simp only [Hubs.setPass, Function.update_of_ne same] at here
    exact ok.reading q batch here

theorem BodiesReachable.setDb {w : Hubs} (ok : BodiesReachable w) {db : Database.Store} (later : Advances w.db db) :
    BodiesReachable { w with db := db } := by
  refine ⟨fun recipient id r found => ?_, fun m member needs => (ok.handed m member needs).later later rfl, ok.reading⟩
  obtain ⟨first, archived⟩ := ok.rows recipient id r found
  exact ⟨first, fun live left marked => (archived live left marked).advance later⟩

section Steps
variable {w : Hubs} (ok : BodiesReachable w)
include ok

theorem BodiesReachable.insert (recipient : String) (row : NewRow) (retry : Bool) (nowMs : Nat) :
    BodiesReachable (insertStep w recipient row retry nowMs).1 := by
  simp only [insertStep]
  split
  swap
  · exact ok
  rename_i mb' outcome
  obtain ⟨free, rfl⟩ := insert_stored outcome
  have after := fun id => Store.find?_append free nowMs id
  have moved : BodiesReachable (w.setMailbox recipient ((w.mailboxes recipient).append row nowMs)) := by
    refine ok.setMailbox (fun id r found => ?_) (fun id r found left => ?_)
    · rw [after] at found
      split at found
      · cases Option.some.inj found
        exact ⟨fun _ => rfl, fun _ _ marked => by cases marked⟩
      · exact ok.rows recipient id r found
    · refine .inr ⟨r, ?_, left, le_rfl⟩
      rw [after, if_neg, found]
      intro same
      rw [← same, free] at found
      cases found
  refine moved.enqueueAfter (fun archived member => ?_)
  obtain ⟨r, found, -, same⟩ := mem_archiveRows.mp member
  refine ⟨r, ?_, same⟩
  simp only [Hubs.setMailbox, Function.update_self]
  exact found

theorem BodiesReachable.acknowledge (recipient : String) (ids : List String) (retry : Bool) (nowMs : Nat) :
    BodiesReachable (acknowledgeStep w recipient ids retry nowMs).1 := by
  have after (id : String) := acknowledge_find? (w.mailboxes recipient) ids retry nowMs id
  have moved : BodiesReachable
      (w.setMailbox recipient (Mailbox.acknowledge (w.mailboxes recipient) ids retry nowMs).2) := by
    refine ok.setMailbox (fun id r' found => ?_) (fun id r found left => ?_)
    · rw [after] at found
      obtain ⟨r, before, rfl⟩ := Option.map_eq_some_iff.mp found
      unfold ackRow
      split
      · exact ⟨fun live => (by cases live), fun live => (by cases live)⟩
      · exact ok.rows recipient id r before
    · rw [after, found, Option.map_some]
      have counted := ok.rows recipient id r found
      unfold ackRow
      split
      · rename_i named
        by_cases marked : 0 < r.archivedVersion
        · exact .inl (Store.messageId_of_find? found ▸ counted.archived named.2 left marked)
        · have kept := leftInHub_acknowledge left named.2 (counted.first named.2) (by omega) nowMs
          exact .inr ⟨_, rfl, kept, Nat.le_succ _⟩
      · exact .inr ⟨_, rfl, left, le_rfl⟩
  refine moved.enqueueAfter (fun row member => ?_)
  obtain ⟨r, found, -, same⟩ := mem_archiveRows.mp member
  refine ⟨r, ?_, same⟩
  simp only [Hubs.setMailbox, Function.update_self]
  exact found

theorem BodiesReachable.replay (recipient : String) (nowMs : Nat) :
    BodiesReachable (replayStep w recipient nowMs).1 := by
  have after (id : String) := takeOwedDue_find? (w.mailboxes recipient) nowMs id
  have moved : BodiesReachable (w.setMailbox recipient (takeOwedDue (w.mailboxes recipient) nowMs).2) := by
    refine ok.setMailbox (fun id r' found => ?_) (fun id r found left => ?_)
    · rw [after] at found
      obtain ⟨r, before, rfl⟩ := Option.map_eq_some_iff.mp found
      obtain ⟨first, archived⟩ := ok.rows recipient id r before
      split <;> exact ⟨first, archived⟩
    · rw [after, found, Option.map_some]
      refine .inr ⟨_, rfl, ?_⟩
      split <;> exact ⟨left, le_rfl⟩
  refine moved.enqueueAfter (fun row member => ?_)
  obtain ⟨r, due, rfl⟩ := List.mem_map.mp member
  refine ⟨{ r with enqueuedAt := some nowMs }, ?_, rfl⟩
  simp only [Hubs.setMailbox, Function.update_self]
  rw [after, mem_owedDue due, Option.map_some, if_pos ⟨r, due, rfl⟩]

/-- One confirmation under the condition. -/
theorem BodiesReachable.doneOne {recipient : String} {d : Done}
    (right : ∀ r, (w.mailboxes recipient).find? d.messageId = some r → leftInHub recipient r = true →
      ConfirmsRightly w.db recipient d r) :
    BodiesReachable (w.setMailbox recipient (archiveDoneOne (w.mailboxes recipient) d)) := by
  have after (id : String) := archiveDoneOne_find? (w.mailboxes recipient) d id
  refine ok.setMailbox (fun id r' found => ?_) (fun id r found left => ?_)
  · rw [after] at found
    split at found
    swap
    · exact ok.rows recipient id r' found
    rename_i same
    subst same
    obtain ⟨r, before, moved⟩ := Option.bind_eq_some_iff.mp found
    obtain ⟨first, archived⟩ := ok.rows recipient d.messageId r before
    have named := Store.messageId_of_find? before
    unfold doneRow at moved
    split at moved
    · cases moved
    · split at moved
      · cases Option.some.inj moved
        exact ⟨first, archived⟩
      · rename_i plain
        split at moved
        · rename_i covers
          cases Option.some.inj moved
          refine ⟨first, fun _ left _ => ?_⟩
          have told := (right r before left).truthful (Bool.eq_false_of_not_eq_true plain)
          rw [← named] at told
          exact told.older covers
        · rename_i older
          cases Option.some.inj moved
          refine ⟨first, fun live left marked => ?_⟩
          -- A live row is at version 1, so a confirmation older than it counts nothing.
          have one := first live
          have zero : d.version = 0 := by omega
          have before : 0 < r.archivedVersion := by simpa [zero] using marked
          have same : leftInHub recipient r = true := by
            rw [← left]
            exact leftInHub_congr (by simp [archiveRow, show r.state = .live from live])
          exact archived live same before
  · rw [after]
    split
    swap
    · exact .inr ⟨r, found, left, le_rfl⟩
    rename_i same
    subst same
    rw [found, Option.bind_some]
    have rightly := right r found left
    unfold doneRow
    split
    · rename_i taken
      rcases rightly.current taken.1 with ⟨plain, covers⟩ | held
      · exact .inl ((rightly.truthful plain).older covers)
      · exact .inl held
    · split
      · exact .inr ⟨_, rfl, left, le_rfl⟩
      · split
        · exact .inr ⟨_, rfl, left, le_rfl⟩
        · rename_i older
          by_cases acked : r.state = .acknowledged
          · rcases rightly.current acked with ⟨-, covers⟩ | held
            · exact absurd covers older
            · exact .inl held
          · refine .inr ⟨_, rfl, ?_, le_rfl⟩
            rw [← left]
            exact leftInHub_congr (by simp [archiveRow, acked])

theorem BodiesReachable.takeDones {recipient : String} {done : List Done}
    (right : AllConfirmRightly w.db recipient done (w.mailboxes recipient)) :
    BodiesReachable (w.setMailbox recipient (takeDones recipient done (w.mailboxes recipient)).1) := by
  induction done generalizing w with
  | nil => simpa [Relay.takeDones, Hubs.setMailbox] using ok
  | cons d rest ih =>
    have first := ok.doneOne right.1
    have tail := ih first (by simpa [Hubs.setMailbox] using right.2)
    simpa [Relay.takeDones, Hubs.setMailbox] using tail

end Steps

/-- Every step of the hubs whose confirmations are right. -/
theorem BodiesReachable.hubStep {w : Hubs} (ok : BodiesReachable w) {input : HubInput} (right : TellsRightly w input) :
    BodiesReachable (Relay.hubStep w input).1 := by
  cases input with
  | insert recipient row retry nowMs => exact ok.insert recipient row retry nowMs
  | acknowledge recipient ids retry nowMs => exact ok.acknowledge recipient ids retry nowMs
  | replay recipient nowMs => exact ok.replay recipient nowMs
  | deliver p batch =>
    simp only [Relay.hubStep, deliverStep]
    split
    · split
      · rename_i handed
        refine ok.setPass p _ (fun batch' same m member _ => ?_)
        cases same
        exact of_decide_eq_true (List.all_eq_true.mp handed m (List.mem_of_mem_filter member))
      · exact ok
    · exact ok
  | readBodies p recipient answered =>
    simp only [Relay.hubStep, readBodiesStep]
    split
    · rename_i batch here
      have queued := ok.reading p batch here
      split
      · refine ok.setPass p _ (fun batch' same m member needs => ?_)
        cases same
        obtain ⟨asked, inside, taken⟩ := List.mem_filterMap.mp member
        split at taken
        · -- What was filled asks no more.
          obtain ⟨body, -, rfl⟩ := Option.map_eq_some_iff.mp taken
          simp [needsHub] at needs
        · cases Option.some.inj taken
          exact queued m inside needs
      · refine ok.setPass p _ (fun batch' same m member needs => ?_)
        cases same
        exact queued m (List.mem_of_mem_filter member) needs
    · exact ok
  | plan p =>
    simp only [Relay.hubStep, planStep]
    split
    · split
      · exact ok
      · exact ok.setPass p _ (fun _ same => by cases same)
    · exact ok
  | write p nowMs answered =>
    simp only [Relay.hubStep, writeStep]
    split
    · rename_i batch verdicts here
      have written := ok.setDb (writeBatch_advances nowMs w.db (applied batch verdicts))
      refine written.setPass p _ (fun _ same => ?_)
      split at same <;> cases same
    · exact ok
  | tell p delivered =>
    simp only [Relay.hubStep, tellStep]
    split
    · rename_i recipient done rest here
      split
      · rename_i heard
        subst heard
        simp only [TellsRightly, here] at right
        exact (ok.takeDones right).setPass p _ (fun _ same => by cases same)
      · exact ok.setPass p _ (fun _ same => by cases same)
    · exact ok.setPass p _ (fun _ same => by cases same)
    · exact ok
  | abandon p => exact ok.setPass p _ (fun _ same => by cases same)

/-! What was handed to the queue. -/

/-- One hub moves: each of its live rows was live before and reads the same, or is handed over now. -/
theorem LiveHanded.setMailbox {w : Hubs} (handed : LiveHanded w) (recipient : String) (mb : Mailbox.Store)
    (rows : List ArchiveRow)
    (kept : ∀ id r', mb.find? id = some r' → r'.state = .live →
      (∃ r, (w.mailboxes recipient).find? id = some r ∧ r.state = .live ∧ archiveRow r = archiveRow r') ∨
        archiveRow r' ∈ rows) :
    LiveHanded ((w.setMailbox recipient mb).enqueueAfter recipient rows) := by
  intro other id r' found live
  by_cases own : other = recipient
  · subst own
    simp only [Hubs.enqueueAfter, Hubs.setMailbox, Function.update_self] at found
    rcases kept id r' found live with ⟨r, before, was, same⟩ | new
    · exact List.mem_append_left _ (same ▸ handed other id r before was)
    · exact List.mem_append_right _ (List.mem_map_of_mem new)
  · simp only [Hubs.enqueueAfter, Hubs.setMailbox, Function.update_of_ne own] at found
    exact List.mem_append_left _ (handed other id r' found live)

theorem LiveHanded.doneOne {w : Hubs} (handed : LiveHanded w) (recipient : String) (d : Done) :
    LiveHanded (w.setMailbox recipient (archiveDoneOne (w.mailboxes recipient) d)) := by
  suffices moved : LiveHanded ((w.setMailbox recipient (archiveDoneOne (w.mailboxes recipient) d)).enqueueAfter
      recipient []) by simpa only [Hubs.enqueueAfter, List.map_nil, List.append_nil] using moved
  refine handed.setMailbox recipient _ [] (fun id r' found live => .inl ?_)
  rw [archiveDoneOne_find?] at found
  split at found
  swap
  · exact ⟨r', found, live, rfl⟩
  obtain ⟨r, before, told⟩ := Option.bind_eq_some_iff.mp found
  refine ⟨r, before, ?_⟩
  unfold doneRow at told
  split at told
  · cases told
  · split at told
    · cases told
      exact ⟨live, rfl⟩
    · split at told
      · cases told
        exact ⟨live, rfl⟩
      · cases told
        have was : r.state = .live := live
        exact ⟨was, by simp [archiveRow, was]⟩

theorem LiveHanded.takeDones {w : Hubs} (handed : LiveHanded w) (recipient : String) (done : List Done) :
    LiveHanded (w.setMailbox recipient (takeDones recipient done (w.mailboxes recipient)).1) := by
  induction done generalizing w with
  | nil => simpa [Relay.takeDones, Hubs.setMailbox] using handed
  | cons d rest ih =>
    have tail := ih (handed.doneOne recipient d)
    simpa [Relay.takeDones, Hubs.setMailbox] using tail

/-- Every step of the hubs, whatever it confirms. -/
theorem LiveHanded.hubStep {w : Hubs} (handed : LiveHanded w) (input : HubInput) :
    LiveHanded (Relay.hubStep w input).1 := by
  cases input with
  | insert recipient row retry nowMs =>
    simp only [Relay.hubStep, insertStep]
    split
    swap
    · exact handed
    rename_i mb' outcome
    obtain ⟨free, rfl⟩ := insert_stored outcome
    refine handed.setMailbox recipient _ _ (fun id r' found live => ?_)
    have there := found
    rw [Store.find?_append free nowMs] at found
    split at found
    · rename_i named
      have keyed := Store.messageId_of_find? there
      refine .inr (mem_archiveRows.mpr ⟨r', keyed ▸ there, ?_, rfl⟩)
      rw [keyed, named]
      exact List.mem_singleton.mpr rfl
    · exact .inl ⟨r', found, live, rfl⟩
  | acknowledge recipient ids retry nowMs =>
    refine handed.setMailbox recipient (Mailbox.acknowledge (w.mailboxes recipient) ids retry nowMs).2 _
      (fun id r' found live => .inl ?_)
    rw [acknowledge_find?] at found
    obtain ⟨r, before, rfl⟩ := Option.map_eq_some_iff.mp found
    unfold ackRow at live ⊢
    split at live
    · cases live
    · rename_i unmoved
      rw [if_neg unmoved]
      exact ⟨r, before, live, rfl⟩
  | replay recipient nowMs =>
    refine handed.setMailbox recipient (takeOwedDue (w.mailboxes recipient) nowMs).2 _
      (fun id r' found live => .inl ?_)
    rw [takeOwedDue_find?] at found
    obtain ⟨r, before, rfl⟩ := Option.map_eq_some_iff.mp found
    refine ⟨r, before, ?_⟩
    split at live <;> split <;> exact ⟨live, rfl⟩
  | deliver p batch =>
    simp only [Relay.hubStep, deliverStep]
    split
    · split <;> exact handed
    · exact handed
  | readBodies p recipient answered =>
    simp only [Relay.hubStep, readBodiesStep]
    split
    · split <;> exact handed
    · exact handed
  | plan p =>
    simp only [Relay.hubStep, planStep]
    split
    · split <;> exact handed
    · exact handed
  | write p nowMs answered =>
    simp only [Relay.hubStep, writeStep]
    split <;> exact handed
  | tell p delivered =>
    simp only [Relay.hubStep, tellStep]
    split
    · split
      · exact handed.takeDones _ _
      · exact handed
    · exact handed
    · exact handed
  | abandon p => exact handed

/-- The D1 part of an acknowledgment. What it deletes stands for no body that the hub has given up. -/
theorem BodiesReachable.ackWrite {w : Hubs} (ok : BodiesReachable w) (handed : LiveHanded w)
    {prefixes : List String} {recipient : String} {ids : List String} (nowMs : Nat)
    (spares : ∀ m ∈ w.queue, needsHub m = true → m.recipient = recipient → m.messageId ∈ ids →
      ∀ row, w.db.row? m.messageId = some row → row.recipient = recipient → m.version ≤ row.archiveVersion →
        inRetainedBox prefixes w.db row = true ∨ StillInHub w m) :
    BodiesReachable { w with db := acknowledgeMessages prefixes w.db recipient ids nowMs } := by
  have stays (m : ArchiveMessage) (member : m ∈ w.queue) (needs : needsHub m = true) (held : HeldFor w.db m) :
      HeldFor (acknowledgeMessages prefixes w.db recipient ids nowMs) m ∨ StillInHub w m := by
    obtain ⟨row, found, own, newer⟩ := held
    by_cases named : row.recipient = recipient ∧ m.messageId ∈ ids
    · rcases spares m member needs (own.symm.trans named.1) named.2 row found named.1 newer with boxed | still
      · obtain ⟨row', found', same, version⟩ := acknowledgeMessages_retained found boxed recipient ids nowMs
        exact .inl ⟨row', found', same.trans own, version ▸ newer⟩
      · exact .inr still
    · exact .inl ⟨row, acknowledgeMessages_other found named, own, newer⟩
  refine ⟨fun other id r found => ?_, fun m member needs => ?_, ok.reading⟩
  · obtain ⟨first, archived⟩ := ok.rows other id r found
    refine ⟨first, fun live left marked => ?_⟩
    have named := Store.messageId_of_find? found
    obtain ⟨toward, keyed, version⟩ := archiveMessage_named (archiveRow r) other
    have needs : needsHub (archiveMessage (archiveRow r) other) = true := needsHub_of_leftInHub left
    have held : HeldFor w.db (archiveMessage (archiveRow r) other) := by
      obtain ⟨row, there, own, newer⟩ := archived live left marked
      exact ⟨row, by rw [keyed]; exact there, own.trans toward.symm, by rw [version]; exact newer⟩
    rcases stays _ (handed other id r found live) needs held with ⟨row, there, own, newer⟩ | ⟨r', again, -, -, unmarked⟩
    · exact ⟨row, by rw [keyed] at there; exact there, own.trans toward, by rw [version] at newer; exact newer⟩
    · -- The row the hub has is this one, and it is marked.
      rw [toward, keyed, show (archiveRow r).messageId = id from named, found] at again
      cases again
      omega
  · rcases ok.handed m member needs with held | there
    · rcases stays m member needs held with held' | ⟨r, found, left, covers, -⟩
      · exact .inl held'
      · exact .inr ⟨r, found, left, covers⟩
    · exact .inr there

theorem advances_insertMessage (db : Database.Store) (messageId messageBox sender recipient body : String)
    (beefKey : Option String) (nowMs : Nat) :
    Advances db (insertMessage db messageId messageBox sender recipient body beefKey nowMs).2 := by
  intro id r found
  rcases insertMessage_cases db messageId messageBox sender recipient body beefKey nowMs with
    ⟨boxId, db', stored, free, -, -, rows⟩ | refused
  · refine ⟨r, ?_, rfl, le_rfl⟩
    rw [stored, rows, if_neg, found]
    intro same
    rw [← same, free] at found
    cases found
  · rw [refused]
    exact ⟨r, found, rfl, le_rfl⟩

/-- The invariant. -/
structure ChangesKept (c : Config World WorldEvent) : Prop where
  reachable : BodiesReachable c.state.hubs
  handed : LiveHanded c.state.hubs

/-- Every step that meets the condition keeps the invariant. -/
theorem ChangesKept.step {prefixes : List String} {c : Config World WorldEvent} (kept : ChangesKept c)
    {input : WorldInput} (keeps : KeepsChanges prefixes c input) :
    ChangesKept ((worldMachine prefixes).advance c input) := by
  have same {w : World} {log : List WorldEvent} (hubs : w.hubs = c.state.hubs) : ChangesKept ⟨w, log⟩ := by
    refine ⟨?_, ?_⟩ <;> simp only [hubs]
    · exact kept.reachable
    · exact kept.handed
  have hubs (log : List WorldEvent) {input : HubInput} (right : TellsRightly c.state.hubs input) :
      ChangesKept ⟨(hubWorldStep c.state input).1, log⟩ :=
    ⟨kept.reachable.hubStep right, kept.handed.hubStep input⟩
  simp only [Machine.advance, worldMachine]
  cases input with
  | hub input => exact hubs _ keeps
  | paid recipient messageBox messageId sender body beefKey nowMs =>
    have later := advances_insertMessage c.state.hubs.db messageId messageBox sender recipient body beefKey nowMs
    exact ⟨kept.reachable.setDb later, kept.handed⟩
  | ackBegin t recipient ids retry nowMs =>
    have acknowledged (log : List WorldEvent) := hubs log (show TellsRightly _ (.acknowledge recipient ids retry nowMs) from
      trivial)
    simp only [worldStep, ackBeginStep]
    split
    · split
      · exact acknowledged _
      · exact ⟨(acknowledged []).reachable, (acknowledged []).handed⟩
    · exact same rfl
  | ackLive t =>
    simp only [worldStep, ackLiveStep]
    split
    · split <;> exact same rfl
    · exact same rfl
  | ackWrite t nowMs answered =>
    simp only [worldStep, ackWriteStep]
    split
    · rename_i recipient ids here
      simp only [KeepsChanges, DeletesRightly, here] at keeps
      exact ⟨kept.reachable.ackWrite kept.handed nowMs keeps, kept.handed⟩
    · exact same rfl
  | listBegin t recipient messageBox =>
    simp only [worldStep, listBeginStep]
    split <;> exact same rfl
  | listBox t =>
    simp only [worldStep, listBoxStep]
    split
    · split <;> exact same rfl
    · exact same rfl
  | listD1 t =>
    simp only [worldStep, listD1Step]
    split <;> exact same rfl
  | listFinish t =>
    simp only [worldStep, listFinishStep]
    split <;> exact same rfl
  | ackFail t => exact same rfl
  | listFail t => exact same rfl

/-- A body is gone from the hub only once D1 holds the change. -/
theorem BodiesReachable.goneArchived {w : Hubs} (ok : BodiesReachable w) : GoneArchived w := by
  intro p recipient m member
  unfold gone at member
  split at member
  swap
  · cases member
  rename_i batch here
  obtain ⟨inside, dropped⟩ := List.mem_filter.mp member
  obtain ⟨needs, toward, bodiless⟩ := fillBodies_isEmpty.mp dropped
  rcases ok.handed m (ok.reading p batch here m inside needs) needs with held | ⟨r, found, left, -⟩
  · exact held
  · exfalso
    rw [toward] at found left
    have named := Store.messageId_of_find? found
    have read : archiveRow r ∈ archiveRows (w.mailboxes recipient)
        ((batch.filter (fun m => needsHub m && m.recipient = recipient)).map ArchiveMessage.messageId) := by
      refine mem_archiveRows.mpr ⟨r, named ▸ found, ?_, rfl⟩
      rw [named]
      exact List.mem_map_of_mem (List.mem_filter.mpr ⟨inside, by simp [needs, toward]⟩)
    cases first : (archiveRows (w.mailboxes recipient) ((batch.filter (fun m =>
        needsHub m && m.recipient = recipient)).map ArchiveMessage.messageId)).find?
          (fun row => row.messageId = m.messageId) with
    | none =>
      have other := List.find?_eq_none.mp first _ read
      simp only [decide_eq_true_eq] at other
      exact other named
    | some row =>
      have same : row.messageId = m.messageId := by simpa using List.find?_some first
      obtain ⟨r', found', -, rfl⟩ := mem_archiveRows.mp (List.mem_of_find?_eq_some first)
      have unique : r' = r := by
        have keyed : r'.messageId = m.messageId := same
        rw [keyed, found] at found'
        exact (Option.some.inj found').symm
      rw [bodyFromHub, first, Option.bind_some, unique] at bodiless
      have there := leftInHub_body left
      rw [show r.body = none from bodiless] at there
      cases there

theorem bodiesReachable_start (db : Database.Store) : BodiesReachable (Hubs.start db) := by
  constructor <;> simp [Hubs.start]

/-- In every run whose steps meet the condition, a message dropped as gone is in D1. -/
theorem gone_archived (prefixes : List String) (db : Database.Store) (inputs : List WorldInput)
    (keeps : (worldMachine prefixes).Guarded (KeepsChanges prefixes) ⟨World.start db, []⟩ inputs) :
    GoneArchived ((worldMachine prefixes).run ⟨World.start db, []⟩ inputs).state.hubs := by
  have fresh : ChangesKept ⟨World.start db, []⟩ := by
    refine ⟨bodiesReachable_start db, fun recipient id r found => ?_⟩
    simp [World.start, Hubs.start] at found
  have kept : ChangesKept ((worldMachine prefixes).run ⟨World.start db, []⟩ inputs) :=
    (worldMachine prefixes).run_invariant (fun _ _ kept keeps => kept.step keeps) fresh keeps
  exact kept.reachable.goneArchived

/-- Inputs of the hubs alone move the hubs alone, as their own machine does. -/
theorem run_hub (prefixes : List String) (c : Config World WorldEvent) (log : List HubEvent) (inputs : List HubInput) :
    ((worldMachine prefixes).run c (inputs.map .hub)).state =
      { c.state with hubs := (hubMachine.run ⟨c.state.hubs, log⟩ inputs).state } := by
  induction inputs generalizing c log with
  | nil => rfl
  | cons input rest ih => exact ih _ _

theorem guarded_hub (prefixes : List String) {c : Config World WorldEvent} {log : List HubEvent}
    {inputs : List HubInput}
    (right : hubMachine.Guarded (fun c input => TellsRightly c.state input) ⟨c.state.hubs, log⟩ inputs) :
    (worldMachine prefixes).Guarded (KeepsChanges prefixes) c (inputs.map .hub) := by
  induction inputs generalizing c log with
  | nil => trivial
  | cons input rest ih => exact ⟨right.1, ih right.2⟩

/-- The letter x, doubled so many times. -/
def doubled : Nat → String
  | 0 => "x"
  | n + 1 => doubled n ++ doubled n

theorem doubled_size (n : Nat) : (doubled n).utf8ByteSize = 2 ^ n ∧ jsonString (doubled n) = 2 + 2 ^ n := by
  induction n with
  | zero => decide
  | succ n ih =>
    obtain ⟨bytes, escaped⟩ := ih
    simp only [jsonString, doubled, String.utf8ByteSize_append, String.toList_append, List.map_append,
      List.sum_append] at escaped ⊢
    constructor <;> omega

def letter (body : String) : NewRow := ⟨"m", "inbox", "carol", body⟩

def letterMessage (version : Nat) (change : Change) : ArchiveMessage :=
  ⟨"alice", "m", version, change, "inbox", "carol", none, some (sqliteTime 0), true⟩

section Letter
variable {body : String} (small : body.utf8ByteSize ≤ bytesLimit) (long : archiveInlineMax < jsonString body)

include small in
theorem insert_letter :
    Mailbox.insert Store.empty (letter body) false 0 Bounds.ruled = (.stored, Store.empty.append (letter body) 0) := by
  have fits : ¬ Bounds.ruled.bytes < 0 + body.utf8ByteSize := by
    rw [Nat.zero_add]
    exact Nat.not_lt.mpr small
  simp only [Mailbox.insert, Store.find?_empty]
  rw [if_neg (by decide)]
  exact if_neg fits

include long in
theorem archiveMessage_letter {r : Row} (same : r.messageId = "m" ∧ r.messageBox = "inbox" ∧ r.sender = "carol" ∧
    r.body = some body ∧ r.createdAt = sqliteTime 0) :
    archiveMessage (archiveRow r) "alice" =
      letterMessage r.version (if r.state = .live then .insert else .acknowledge) := by
  obtain ⟨id, box, sender, text, made⟩ := same
  have tooLong : archiveInlineMax < (inlineMessage (archiveRow r) "alice").jsonLength := by
    simp only [inlineMessage, archiveRow, ArchiveMessage.jsonLength, jsonField, jsonOption, text, Option.elim_some,
      List.sum_append, List.sum_cons]
    omega
  rw [archiveMessage, if_pos ⟨tooLong, by simp [archiveRow, text]⟩]
  simp [inlineMessage, archiveRow, letterMessage, id, box, sender, made]

def lettered (body : String) : Mailbox.Store := Store.empty.append (letter body) 0

/-- The letter stored and its store archived, with the hub not told yet. -/
def archivedUntold (body : String) : Hubs :=
  { mailboxes := Function.update (fun _ => Store.empty) "alice" (lettered body)
    db := writeMessage 1 Database.Store.empty { letterMessage 1 .insert with body := some body }
    queue := [letterMessage 1 .insert]
    passes := Function.update (fun _ => .idle) 0 (.telling [("alice", [⟨"m", 1, false⟩])]) }

def archiving (body : String) : List HubInput :=
  [.insert "alice" (letter body) false 0, .deliver 0 [letterMessage 1 .insert], .readBodies 0 "alice" true, .plan 0,
    .write 0 1 true]

theorem archiveRows_lettered : archiveRows (lettered body) ["m"] =
    [archiveRow (freshRow Store.empty (letter body) 0)] := rfl

include small long in
theorem insertStep_letter : (insertStep (Hubs.start Database.Store.empty) "alice" (letter body) false 0).1 =
    { mailboxes := Function.update (fun _ => Store.empty) "alice" (lettered body), db := Database.Store.empty,
      queue := [letterMessage 1 .insert], passes := fun _ => .idle } := by
  have handed := archiveMessage_letter long (r := freshRow Store.empty (letter body) 0) ⟨rfl, rfl, rfl, rfl, rfl⟩
  simp only [insertStep, Hubs.start, insert_letter small, Hubs.setMailbox, Hubs.enqueueAfter]
  change (⟨_, _, [] ++ (archiveRows (lettered body) ["m"]).map _, _⟩ : Hubs) = _
  rw [archiveRows_lettered, List.map_singleton, handed]
  rfl

theorem deliver_letter {w : Hubs} {p : Nat} {version : Nat} {change : Change} (idle : w.passes p = .idle)
    (queued : letterMessage (version + 1) change ∈ w.queue) :
    deliverStep w p [letterMessage (version + 1) change] =
      w.setPass p (.reading [letterMessage (version + 1) change]) := by
  simp only [deliverStep, idle]
  have parsed : (parse (letterMessage (version + 1) change)).isOk = true := by
    simp [parse, letterMessage]
    rfl
  rw [if_pos (by simpa using queued)]
  simp [parsed]

theorem setPass_setPass (w : Hubs) (p : Nat) (first second : Pass) :
    (w.setPass p first).setPass p second = w.setPass p second := by
  simp [Hubs.setPass]

theorem passes_setPass (w : Hubs) (p : Nat) (pass : Pass) : (w.setPass p pass).passes p = pass := by
  simp [Hubs.setPass]

theorem readBodies_letter {w : Hubs} (p : Nat) (held : w.mailboxes "alice" = lettered body) :
    readBodiesStep (w.setPass p (.reading [letterMessage 1 .insert])) p "alice" true =
      w.setPass p (.reading [{ letterMessage 1 .insert with body := some body }]) := by
  simp only [readBodiesStep, passes_setPass, if_true, setPass_setPass]
  change Hubs.setPass w p (.reading (fillBodies _ (archiveRows (w.mailboxes "alice") _) _)) = _
  rw [held]
  rfl

theorem plan_letter {w : Hubs} (p : Nat) (free : w.db = Database.Store.empty) :
    planStep (w.setPass p (.reading [{ letterMessage 1 .insert with body := some body }])) p =
      w.setPass p (.planned [{ letterMessage 1 .insert with body := some body }] [.apply]) := by
  simp only [planStep, passes_setPass, setPass_setPass]
  change (if false = true then _ else Hubs.setPass w p (.planned _ (plan _ (heldBy w.db _)))) = _
  rw [free]
  rfl

theorem write_letter (w : Hubs) (p : Nat) :
    writeStep (w.setPass p (.planned [{ letterMessage 1 .insert with body := some body }] [.apply])) p 1 true =
      Hubs.setPass
        { w with db := writeMessage 1 w.db { letterMessage 1 .insert with body := some body } } p
          (.telling [("alice", [⟨"m", 1, false⟩])]) := by
  simp only [writeStep, passes_setPass, if_true]
  exact setPass_setPass { w with db := writeMessage 1 w.db { letterMessage 1 .insert with body := some body } } p
    (.planned [{ letterMessage 1 .insert with body := some body }] [.apply]) (.telling [("alice", [⟨"m", 1, false⟩])])

include small long in
theorem run_archiving : (hubMachine.run ⟨Hubs.start Database.Store.empty, []⟩ (archiving body)).state =
    archivedUntold body := by
  change writeStep (planStep (readBodiesStep (deliverStep (insertStep _ _ _ _ _).1 _ _) _ _ _) _) _ _ _ = _
  rw [insertStep_letter small long, deliver_letter rfl (List.mem_singleton.mpr rfl), readBodies_letter 0 rfl,
    plan_letter 0 rfl, write_letter]
  rfl

/-- The hub hears of the store, the letter is acknowledged, and the store's message is delivered again. -/
def inOrder (body : String) : List HubInput :=
  archiving body ++ [.tell 0 true, .acknowledge "alice" ["m"] false 2, .deliver 1 [letterMessage 1 .insert]]

/-- The hubs after the run in order. -/
def inOrderHubs (body : String) : Hubs :=
  Hubs.setPass (acknowledgeStep (tellStep (archivedUntold body) 0 true).1 "alice" ["m"] false 2).1 1
    (.reading [letterMessage 1 .insert])

/-- The letter is acknowledged before the hub hears of the store, and the acknowledgment's message is delivered. -/
def overtaken (body : String) : List HubInput :=
  archiving body ++ [.acknowledge "alice" ["m"] false 2, .tell 0 true, .deliver 1 [letterMessage 2 .acknowledge]]

include small long in
theorem run_inOrder : (hubMachine.run ⟨Hubs.start Database.Store.empty, []⟩ (inOrder body)).state =
    inOrderHubs body := by
  have state := run_archiving small long
  rw [inOrder, Machine.run_append]
  generalize hubMachine.run ⟨Hubs.start Database.Store.empty, []⟩ (archiving body) = c at state ⊢
  simp only [Machine.run_cons, Machine.run_nil, Machine.advance, hubMachine, hubStep, state]
  exact deliver_letter rfl (List.mem_cons_self ..)

include small long in
theorem run_overtaken : (hubMachine.run ⟨Hubs.start Database.Store.empty, []⟩ (overtaken body)).state =
    Hubs.setPass (tellStep (acknowledgeStep (archivedUntold body) "alice" ["m"] false 2).1 0 true).1 1
      (.reading [letterMessage 2 .acknowledge]) := by
  have handed := archiveMessage_letter long (r := (freshRow Store.empty (letter body) 0).acknowledge 2)
    ⟨rfl, rfl, rfl, rfl, rfl⟩
  have queue : (acknowledgeStep (archivedUntold body) "alice" ["m"] false 2).1.queue =
      [letterMessage 1 .insert, archiveMessage (archiveRow ((freshRow Store.empty (letter body) 0).acknowledge 2))
        "alice"] := rfl
  rw [handed] at queue
  have state := run_archiving small long
  rw [overtaken, Machine.run_append]
  generalize hubMachine.run ⟨Hubs.start Database.Store.empty, []⟩ (archiving body) = c at state ⊢
  simp only [Machine.run_cons, Machine.run_nil, Machine.advance, hubMachine, hubStep, state]
  refine deliver_letter rfl ?_
  change letterMessage 2 .acknowledge ∈ (acknowledgeStep (archivedUntold body) "alice" ["m"] false 2).1.queue
  rw [queue]
  exact List.mem_cons_of_mem _ (List.mem_cons_self ..)

include small long in
theorem tellsRightly_inOrder :
    hubMachine.Guarded (fun c input => TellsRightly c.state input) ⟨Hubs.start Database.Store.empty, []⟩ (inOrder body) := by
  have state := run_archiving small long
  refine (Machine.guarded_append _ _ _ _).mpr ⟨⟨trivial, trivial, trivial, trivial, trivial, trivial⟩, ?_⟩
  generalize hubMachine.run ⟨Hubs.start Database.Store.empty, []⟩ (archiving body) = c at state ⊢
  refine ⟨?_, trivial, trivial, trivial⟩
  simp only [TellsRightly, state]
  refine ⟨fun r found left => ?_, trivial⟩
  cases found
  exact ⟨fun _ => ⟨_, rfl, rfl, le_rfl⟩, fun acked => by cases acked⟩

/-- The same on the relay, after which a paid message of bob's is acknowledged in D1. -/
def inOrderThenPaid (body : String) : List WorldInput :=
  (inOrder body).map .hub ++
    [.paid "bob" "inbox" "p" "carol" "paid" none 3, .ackBegin 0 "bob" ["p"] false 4, .ackLive 0, .ackWrite 0 5 true]

/-- Bob's message stored, and his hub asked. -/
def paidAsked (body : String) : World :=
  let stored := (paidStep ⟨inOrderHubs body, fun _ => .idle, fun _ => .idle⟩ "bob" "inbox" "p" "carol" "paid" none 3).1
  (ackBeginStep stored 0 "bob" ["p"] false 4).1

/-- The D1 part of an acknowledgment moves neither hub nor pass. -/
theorem hubs_ackWriteStep (prefixes : List String) (w : World) (t nowMs : Nat) (answered : Bool) (p : Nat)
    (recipient : String) :
    (ackWriteStep prefixes w t nowMs answered).1.hubs.passes p = w.hubs.passes p ∧
      (ackWriteStep prefixes w t nowMs answered).1.hubs.mailboxes recipient = w.hubs.mailboxes recipient := by
  unfold ackWriteStep
  split <;> exact ⟨rfl, rfl⟩

theorem ackLiveStep_paidAsked (body : String) :
    ackLiveStep (paidAsked body) 0 = ((paidAsked body).setAck 0 (.live "bob" ["p"]), []) := by
  have asked : (paidAsked body).acks 0 = .missing "bob" ["p"] := rfl
  have live : liveMessageIds (paidAsked body).hubs.db "bob" ["p"] = ["p"] := rfl
  simp [ackLiveStep, asked, live]

include small long in
theorem state_inOrder : ((worldMachine []).run ⟨World.start Database.Store.empty, []⟩ ((inOrder body).map .hub)).state =
    ⟨inOrderHubs body, fun _ => .idle, fun _ => .idle⟩ := by
  rw [run_hub [] _ []]
  exact congrArg (fun hubs => World.mk hubs _ _) (run_inOrder small long)

include small long in
theorem keepsChanges_inOrderThenPaid :
    (worldMachine []).Guarded (KeepsChanges []) ⟨World.start Database.Store.empty, []⟩ (inOrderThenPaid body) := by
  refine (Machine.guarded_append _ _ _ _).mpr ⟨guarded_hub [] (tellsRightly_inOrder small long), ?_⟩
  have state := state_inOrder small long
  generalize (worldMachine []).run ⟨World.start Database.Store.empty, []⟩ ((inOrder body).map .hub) = c at state ⊢
  obtain ⟨w, log⟩ := c
  subst state
  refine ⟨trivial, trivial, trivial, ?_, trivial⟩
  change DeletesRightly [] (ackLiveStep (paidAsked body) 0).1 0
  rw [ackLiveStep_paidAsked]
  intro m member _ toward
  -- Every message handed to the queue is alice's.
  have alices : m.recipient = "alice" := by
    rcases List.mem_cons.mp member with rfl | rest
    · rfl
    · rw [List.mem_singleton.mp rest]
      exact (archiveMessage_named _ "alice").1
  rw [alices] at toward
  exact absurd toward (by decide)

include small long in
theorem gone_inOrderThenPaid : letterMessage 1 .insert ∈
    gone ((worldMachine []).run ⟨World.start Database.Store.empty, []⟩ (inOrderThenPaid body)).state.hubs 1 "alice" := by
  have state := state_inOrder small long
  rw [inOrderThenPaid, Machine.run_append]
  generalize (worldMachine []).run ⟨World.start Database.Store.empty, []⟩ ((inOrder body).map .hub) = c at state ⊢
  obtain ⟨w, log⟩ := c
  subst state
  change _ ∈ gone (ackWriteStep [] (ackLiveStep (paidAsked body) 0).1 0 5 true).1.hubs 1 "alice"
  rw [ackLiveStep_paidAsked]
  obtain ⟨passes, mailbox⟩ := hubs_ackWriteStep [] ((paidAsked body).setAck 0 (.live "bob" ["p"])) 0 5 true 1 "alice"
  rw [gone_congr passes mailbox]
  have same : gone (paidAsked body).hubs 1 "alice" = gone (inOrderHubs body) 1 "alice" := gone_congr rfl rfl
  change letterMessage 1 .insert ∈ gone (paidAsked body).hubs 1 "alice"
  rw [same]
  exact List.mem_singleton.mpr rfl

end Letter

theorem doubled_long : (doubled 17).utf8ByteSize ≤ bytesLimit ∧ archiveInlineMax < jsonString (doubled 17) := by
  rw [(doubled_size 17).1, (doubled_size 17).2]
  decide

/-- A message whose row was archived and acknowledged is dropped, and D1 holds its change. -/
theorem gone_archived_inOrder :
    let c := (worldMachine []).run ⟨World.start Database.Store.empty, []⟩ (inOrderThenPaid (doubled 17))
    letterMessage 1 .insert ∈ gone c.state.hubs 1 "alice" ∧ HeldFor c.state.hubs.db (letterMessage 1 .insert) := by
  obtain ⟨small, long⟩ := doubled_long
  generalize doubled 17 = body at small long ⊢
  have dropped := gone_inOrderThenPaid small long
  exact ⟨dropped, gone_archived _ _ _ (keepsChanges_inOrderThenPaid small long) 1 "alice" _ dropped⟩

/-- An older version's confirmation that overtakes an acknowledgment drops the body, and the acknowledgment's message
is then dropped too while D1 holds the older version. -/
theorem overtaken_drops_unarchived :
    let c := (worldMachine []).run ⟨World.start Database.Store.empty, []⟩ ((overtaken (doubled 17)).map .hub)
    letterMessage 2 .acknowledge ∈ gone c.state.hubs 1 "alice" ∧
      ¬ HeldFor c.state.hubs.db (letterMessage 2 .acknowledge) := by
  obtain ⟨small, long⟩ := doubled_long
  generalize doubled 17 = body at small long ⊢
  simp only [run_hub [] _ [], World.start]
  rw [run_overtaken small long]
  refine ⟨List.mem_singleton.mpr rfl, ?_⟩
  rintro ⟨r, found, -, newer⟩
  cases found
  exact absurd (show 2 ≤ 1 from newer) (by decide)

end MessageRelay.Relay
