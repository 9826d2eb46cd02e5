import MessageRelay.Archive.Batch
import MessageRelay.Database.Rows

/-! What one archive write and one batch of writes do to the rows of D1. A row keeps its recipient
and never goes back to an older version, and a message whose id nobody else took is held after. -/

namespace MessageRelay.Archive
open MessageRelay.Library MessageRelay.Mailbox MessageRelay.Database

/-- Every row is still there for the same recipient, at its version or a newer one. -/
def Advances (before after : Database.Store) : Prop :=
  ∀ id r, before.row? id = some r →
    ∃ r', after.row? id = some r' ∧ r'.recipient = r.recipient ∧ r.archiveVersion ≤ r'.archiveVersion

theorem Advances.refl (db : Database.Store) : Advances db db :=
  fun _ r found => ⟨r, found, rfl, le_rfl⟩

theorem Advances.trans {a b c : Database.Store} (first : Advances a b) (second : Advances b c) :
    Advances a c := by
  intro id r found
  obtain ⟨r', found', same, newer⟩ := first id r found
  obtain ⟨r'', found'', same', newer'⟩ := second id r' found'
  exact ⟨r'', found'', same'.trans same, newer.trans newer'⟩

/-- The row a write leaves under the message's own id. -/
def writtenRow (nowMs boxId : Nat) (m : ArchiveMessage) : Option MessageRow → MessageRow
  | none => excludedRow nowMs boxId m
  | some held =>
    if held.archiveVersion < m.version ∧ held.recipient = m.recipient then
      mergeRow nowMs (excludedRow nowMs boxId m) held
    else held

theorem boxes_writeMessage (nowMs : Nat) (db : Database.Store) (m : ArchiveMessage) :
    (writeMessage nowMs db m).boxes = (insertBox db m.recipient m.messageBox).boxes := by
  unfold writeMessage archiveUpsert
  split
  · rfl
  · simp only
    split
    · rfl
    · split <;> rfl

/-- A write leaves its row in its recipient's box. -/
theorem row?_writeMessage_boxed (nowMs : Nat) (db : Database.Store) (m : ArchiveMessage) :
    ∃ boxId, findMessageBox (writeMessage nowMs db m) m.recipient m.messageBox = some boxId ∧
      ∀ id, (writeMessage nowMs db m).row? id =
        if m.messageId = id then some (writtenRow nowMs boxId m (db.row? id)) else db.row? id := by
  obtain ⟨boxId, boxed⟩ := findMessageBox_insertBox db m.recipient m.messageBox
  refine ⟨boxId, by rw [findMessageBox, boxes_writeMessage]; exact boxed, fun id => ?_⟩
  have rows (id : String) : (insertBox db m.recipient m.messageBox).row? id = db.row? id := rfl
  simp only [writeMessage, archiveUpsert, boxed, rows]
  cases held : db.row? m.messageId with
  | none =>
    have absent : db.messages.find? m.messageId = none := held
    simp only [Store.row?, insertBox, Table.find?_insertIgnore]
    change (if m.messageId = id then _ else _) = _
    by_cases same : m.messageId = id
    · subst same
      simp [absent, writtenRow]
    · simp [same]
  | some r =>
    have present : db.messages.find? m.messageId = some r := held
    by_cases same : m.messageId = id
    · subst same
      simp only [writtenRow, held, if_true]
      by_cases moves : r.archiveVersion < m.version ∧ r.recipient = m.recipient
      · rw [if_pos moves]
        simp only [excludedRow, moves, and_self, if_true, Store.row?, insertBox, Table.find?_modify, present]
        rfl
      · rw [if_neg moves]
        simp only [excludedRow, moves, if_false, rows, held]
    · simp only [if_neg same]
      split
      · exact (Table.find?_modify _ _ _ (mergeRow_messageId nowMs _) id).trans (if_neg (Ne.symm same))
      · exact rows id

theorem row?_writeMessage (nowMs : Nat) (db : Database.Store) (m : ArchiveMessage) :
    ∃ boxId, ∀ id, (writeMessage nowMs db m).row? id =
      if m.messageId = id then some (writtenRow nowMs boxId m (db.row? id)) else db.row? id := by
  obtain ⟨boxId, -, rows⟩ := row?_writeMessage_boxed nowMs db m
  exact ⟨boxId, rows⟩

theorem writtenRow_own (nowMs boxId : Nat) {m : ArchiveMessage} {held : Option MessageRow}
    (owned : ∀ r, held = some r → r.recipient = m.recipient) :
    (writtenRow nowMs boxId m held).recipient = m.recipient ∧
      m.version ≤ (writtenRow nowMs boxId m held).archiveVersion := by
  cases held with
  | none => exact ⟨rfl, le_rfl⟩
  | some r =>
    have own := owned r rfl
    simp only [writtenRow]
    split
    · exact ⟨own, le_rfl⟩
    · rename_i stays
      exact ⟨own, Nat.le_of_not_lt (fun newer => stays ⟨newer, own⟩)⟩

theorem writtenRow_kept (nowMs boxId : Nat) (m : ArchiveMessage) (r : MessageRow) :
    (writtenRow nowMs boxId m (some r)).recipient = r.recipient ∧
      r.archiveVersion ≤ (writtenRow nowMs boxId m (some r)).archiveVersion := by
  simp only [writtenRow]
  split
  · rename_i moves
    exact ⟨rfl, Nat.le_of_lt moves.1⟩
  · exact ⟨rfl, le_rfl⟩

theorem writeMessage_advances (nowMs : Nat) (db : Database.Store) (m : ArchiveMessage) :
    Advances db (writeMessage nowMs db m) := by
  obtain ⟨boxId, rows⟩ := row?_writeMessage nowMs db m
  intro id r found
  by_cases same : m.messageId = id
  · refine ⟨writtenRow nowMs boxId m (some r), ?_, writtenRow_kept nowMs boxId m r⟩
    rw [rows, if_pos same, found]
  · exact ⟨r, by rw [rows, if_neg same, found], rfl, le_rfl⟩

theorem writeBatch_advances (nowMs : Nat) (db : Database.Store) (ms : List ArchiveMessage) :
    Advances db (writeBatch nowMs db ms) := by
  induction ms generalizing db with
  | nil => exact Advances.refl db
  | cons m rest ih => exact (writeMessage_advances nowMs db m).trans (ih (writeMessage nowMs db m))

/-- D1 holds the message's id for its own recipient, at its version or a newer one. -/
def HeldFor (db : Database.Store) (m : ArchiveMessage) : Prop :=
  ∃ r, db.row? m.messageId = some r ∧ r.recipient = m.recipient ∧ m.version ≤ r.archiveVersion

/-- D1 holds the message's id for another recipient. -/
def HeldByOther (db : Database.Store) (m : ArchiveMessage) : Prop :=
  ∃ r, db.row? m.messageId = some r ∧ r.recipient ≠ m.recipient

theorem HeldFor.advance {before after : Database.Store} {m : ArchiveMessage} (held : HeldFor before m)
    (later : Advances before after) : HeldFor after m := by
  obtain ⟨r, found, own, newer⟩ := held
  obtain ⟨r', found', same, higher⟩ := later _ r found
  exact ⟨r', found', same.trans own, newer.trans higher⟩

theorem HeldByOther.advance {before after : Database.Store} {m : ArchiveMessage}
    (held : HeldByOther before m) (later : Advances before after) : HeldByOther after m := by
  obtain ⟨r, found, other⟩ := held
  obtain ⟨r', found', same, -⟩ := later _ r found
  exact ⟨r', found', same ▸ other⟩

/-- D1's row under the message's id, if there is one, is its recipient's. -/
def Unclaimed (db : Database.Store) (m : ArchiveMessage) : Prop :=
  ∀ r, db.row? m.messageId = some r → r.recipient = m.recipient

instance (db : Database.Store) (m : ArchiveMessage) : Decidable (Unclaimed db m) :=
  decidable_of_iff ((db.row? m.messageId).all (fun r => r.recipient = m.recipient) = true) (by
    cases found : db.row? m.messageId <;> simp [Unclaimed, found])

theorem writeMessage_heldFor {nowMs : Nat} {db : Database.Store} {m : ArchiveMessage}
    (free : Unclaimed db m) : HeldFor (writeMessage nowMs db m) m := by
  obtain ⟨boxId, rows⟩ := row?_writeMessage nowMs db m
  exact ⟨_, by rw [rows, if_pos rfl], writtenRow_own nowMs boxId free⟩

/-- A message of a batch is held after the write when nobody else, in D1 or in the batch, names its id. -/
theorem writeBatch_heldFor {nowMs : Nat} {db : Database.Store} {ms : List ArchiveMessage} {m : ArchiveMessage}
    (free : Unclaimed db m) (shared : ∀ other ∈ ms, other.messageId = m.messageId → other.recipient = m.recipient)
    (member : m ∈ ms) : HeldFor (writeBatch nowMs db ms) m := by
  induction ms generalizing db with
  | nil => cases member
  | cons head rest ih =>
    rcases List.mem_cons.mp member with rfl | later
    · exact (writeMessage_heldFor free).advance (writeBatch_advances nowMs _ rest)
    · refine ih (fun r found => ?_) (fun other inside => shared other (List.mem_cons_of_mem _ inside)) later
      obtain ⟨boxId, rows⟩ := row?_writeMessage nowMs db head
      rw [rows] at found
      split at found
      · rename_i same
        have ours := shared head (List.mem_cons_self ..) same
        have own := writtenRow_own nowMs boxId (fun r held => (free r held).trans ours.symm)
        rw [← Option.some.inj found, own.1, ours]
      · exact free r found

end MessageRelay.Archive
