import MessageRelay.Database.Store
import MessageRelay.Mailbox.Rows

/-! What each D1 statement does to the row under an id and to the boxes. -/

namespace MessageRelay.Database
open MessageRelay.Library MessageRelay.Mailbox

theorem messageId_of_row? {db : Store} {id : String} {r : MessageRow} (found : db.row? id = some r) :
    r.messageId = id := Table.key_of_find? found

/-- A box once made keeps its id. -/
theorem findMessageBox_insertBox_of_some {db : Store} {identityKey boxType : String} {boxId : Nat}
    (found : findMessageBox db identityKey boxType = some boxId) (other otherType : String) :
    findMessageBox (insertBox db other otherType) identityKey boxType = some boxId := by
  obtain ⟨b, there, same⟩ := Option.map_eq_some_iff.mp found
  simp only [findMessageBox, insertBox, Table.find?_insertIgnore, there, Option.getD_some, ite_self,
    Option.map_some, same]

theorem findMessageBox_insertBox (db : Store) (identityKey boxType : String) :
    ∃ boxId, findMessageBox (insertBox db identityKey boxType) identityKey boxType = some boxId := by
  simp [findMessageBox, insertBox, Table.find?_insertIgnore, BoxRow.owner]

/-- A paid insert writes its row exactly where the id is free. -/
theorem insertMessage_cases (db : Store) (messageId messageBox sender recipient body : String)
    (beefKey : Option String) (nowMs : Nat) :
    (∃ boxId db', insertMessage db messageId messageBox sender recipient body beefKey nowMs = (true, db') ∧
        db.row? messageId = none ∧ db'.boxes = (insertBox db recipient messageBox).boxes ∧
        findMessageBox db' recipient messageBox = some boxId ∧
        ∀ id, db'.row? id = if messageId = id then some (paidRow messageId boxId sender recipient body beefKey nowMs)
          else db.row? id) ∨
      insertMessage db messageId messageBox sender recipient body beefKey nowMs =
        (false, insertBox db recipient messageBox) := by
  obtain ⟨boxId, boxed⟩ := findMessageBox_insertBox db recipient messageBox
  have rows (id : String) : (insertBox db recipient messageBox).row? id = db.row? id := rfl
  cases free : db.row? messageId with
  | some r =>
    right
    simp only [insertMessage, boxed, rows, free]
  | none =>
    left
    let row := paidRow messageId boxId sender recipient body beefKey nowMs
    let stored : Store := { insertBox db recipient messageBox with
      messages := (insertBox db recipient messageBox).messages.insertIgnore row }
    have done : insertMessage db messageId messageBox sender recipient body beefKey nowMs = (true, stored) := by
      simp only [insertMessage, boxed, rows, free]
      rfl
    refine ⟨boxId, stored, done, rfl, rfl, boxed, fun id => ?_⟩
    have absent : (insertBox db recipient messageBox).messages.find? messageId = none := free
    simp only [Store.row?, stored, Table.find?_insertIgnore]
    change (if messageId = id then _ else _) = _
    by_cases same : messageId = id
    · subst same
      simp [absent, row]
    · simp [same, insertBox]

/-- The ids D1 answers live are those whose row is the recipient's and unacknowledged. -/
theorem mem_liveMessageIds {db : Store} {recipient : String} {ids : List String} {id : String} :
    id ∈ liveMessageIds db recipient ids ↔
      id ∈ ids ∧ ∃ r, db.row? id = some r ∧ r.recipient = recipient ∧ r.acknowledgedAt = none := by
  simp only [liveMessageIds, List.mem_flatMap, List.mem_map, List.mem_filter, decide_eq_true_eq]
  constructor
  · intro found
    obtain ⟨chunk, inside, r, ⟨member, own, live, named⟩, rfl⟩ := found
    refine ⟨(mem_chunks idsPerStatement (by decide) ids _).mp ⟨chunk, inside, named⟩, r, ?_, own, live⟩
    exact (db.messages.find?_eq_some _ r).mpr ⟨member, rfl⟩
  · intro found
    obtain ⟨named, r, there, own, live⟩ := found
    obtain ⟨chunk, inside, member⟩ := (mem_chunks idsPerStatement (by decide) ids _).mpr named
    obtain ⟨row, key⟩ := (db.messages.find?_eq_some id r).mp there
    have same : r.messageId = id := key
    exact ⟨chunk, inside, r, ⟨row, own, live, same.symm ▸ member⟩, same⟩

theorem markAcknowledged_keeps (prefixes : List String) (recipient : String) (ids : List String) (nowMs : Nat)
    (db : Store) (r : MessageRow) :
    (markAcknowledged prefixes recipient ids nowMs db r).sender = r.sender ∧
      (markAcknowledged prefixes recipient ids nowMs db r).recipient = r.recipient ∧
      (markAcknowledged prefixes recipient ids nowMs db r).body = r.body := by
  unfold markAcknowledged
  split <;> exact ⟨rfl, rfl, rfl⟩

theorem row?_acknowledgeMessages (prefixes : List String) (db : Store) (recipient : String) (ids : List String)
    (nowMs : Nat) (id : String) :
    (acknowledgeMessages prefixes db recipient ids nowMs).row? id =
      ((db.row? id).map (markAcknowledged prefixes recipient ids nowMs db)).filter
        (fun r => !decide (r.recipient = recipient ∧ r.messageId ∈ ids ∧ inRetainedBox prefixes db r = false)) := by
  simp only [acknowledgeMessages, Store.row?, Table.find?_keep, Table.find?_map]

/-- What an acknowledgment leaves in D1 was there, from the same sender and with the same body. -/
theorem acknowledgeMessages_back {prefixes : List String} {db : Store} {recipient : String} {ids : List String}
    {nowMs : Nat} {id : String} {r' : MessageRow}
    (found : (acknowledgeMessages prefixes db recipient ids nowMs).row? id = some r') :
    ∃ r, db.row? id = some r ∧ r'.sender = r.sender ∧ r'.recipient = r.recipient ∧ r'.body = r.body := by
  rw [row?_acknowledgeMessages] at found
  obtain ⟨marked, -⟩ := Option.filter_eq_some_iff.mp found
  obtain ⟨r, before, rfl⟩ := Option.map_eq_some_iff.mp marked
  exact ⟨r, before, markAcknowledged_keeps ..⟩

theorem markAcknowledged_placed (prefixes : List String) (recipient : String) (ids : List String) (nowMs : Nat)
    (db : Store) (r : MessageRow) :
    (markAcknowledged prefixes recipient ids nowMs db r).archiveVersion = r.archiveVersion ∧
      (markAcknowledged prefixes recipient ids nowMs db r).messageBoxId = r.messageBoxId := by
  unfold markAcknowledged
  split <;> exact ⟨rfl, rfl⟩

/-- A mark is kept, and what is named in a retained box gets one. -/
theorem markAcknowledged_marks {prefixes : List String} {recipient : String} {ids : List String} (nowMs : Nat)
    {db : Store} {r : MessageRow} (marks : r.acknowledgedAt ≠ none ∨
      r.recipient = recipient ∧ r.messageId ∈ ids ∧ inRetainedBox prefixes db r = true) :
    (markAcknowledged prefixes recipient ids nowMs db r).acknowledgedAt ≠ none := by
  unfold markAcknowledged
  split
  · exact Option.some_ne_none _
  · rename_i unmarked
    intro lost
    rcases marks with already | ⟨own, inside, boxed⟩
    · exact already lost
    · exact unmarked ⟨own, lost, inside, boxed⟩

/-- An acknowledgment keeps versions and marks, and marks what it names and does not delete. -/
theorem acknowledgeMessages_marks {prefixes : List String} {db : Store} {recipient : String} {ids : List String}
    {nowMs : Nat} {id : String} {r' : MessageRow}
    (found : (acknowledgeMessages prefixes db recipient ids nowMs).row? id = some r') :
    ∃ r, db.row? id = some r ∧ r'.recipient = r.recipient ∧ r'.archiveVersion = r.archiveVersion ∧
      (r.acknowledgedAt ≠ none ∨ r.recipient = recipient ∧ id ∈ ids → r'.acknowledgedAt ≠ none) := by
  rw [row?_acknowledgeMessages] at found
  obtain ⟨marked, kept⟩ := Option.filter_eq_some_iff.mp found
  obtain ⟨r, before, rfl⟩ := Option.map_eq_some_iff.mp marked
  obtain ⟨-, same, -⟩ := markAcknowledged_keeps prefixes recipient ids nowMs db r
  obtain ⟨version, place⟩ := markAcknowledged_placed prefixes recipient ids nowMs db r
  have named := messageId_of_row? before
  refine ⟨r, before, same, version, fun marks => markAcknowledged_marks nowMs ?_⟩
  rcases marks with already | ⟨own, inside⟩
  · exact .inl already
  · refine .inr ⟨own, named ▸ inside, ?_⟩
    have box : inRetainedBox prefixes db (markAcknowledged prefixes recipient ids nowMs db r) =
        inRetainedBox prefixes db r := by simp only [inRetainedBox, place]
    rw [same, markAcknowledged_messageId, box, named] at kept
    simpa [own, inside] using kept

/-- A row of a retained box stays, at its version. -/
theorem acknowledgeMessages_retained {prefixes : List String} {db : Store} {id : String} {r : MessageRow}
    (found : db.row? id = some r) (boxed : inRetainedBox prefixes db r = true) (recipient : String)
    (ids : List String) (nowMs : Nat) :
    ∃ r', (acknowledgeMessages prefixes db recipient ids nowMs).row? id = some r' ∧ r'.recipient = r.recipient ∧
      r'.archiveVersion = r.archiveVersion := by
  obtain ⟨-, same, -⟩ := markAcknowledged_keeps prefixes recipient ids nowMs db r
  obtain ⟨version, place⟩ := markAcknowledged_placed prefixes recipient ids nowMs db r
  have still : inRetainedBox prefixes db (markAcknowledged prefixes recipient ids nowMs db r) = true := by
    simpa only [inRetainedBox, place] using boxed
  refine ⟨_, ?_, same, version⟩
  rw [row?_acknowledgeMessages, found, Option.map_some]
  exact Option.filter_some_pos (by simp [still])

/-- A row of another recipient or another id is left alone. -/
theorem acknowledgeMessages_other {prefixes : List String} {db : Store} {recipient : String} {ids : List String}
    {nowMs : Nat} {id : String} {r : MessageRow} (found : db.row? id = some r)
    (unnamed : ¬ (r.recipient = recipient ∧ id ∈ ids)) :
    (acknowledgeMessages prefixes db recipient ids nowMs).row? id = some r := by
  have named := messageId_of_row? found
  have same : markAcknowledged prefixes recipient ids nowMs db r = r :=
    if_neg (fun all => unnamed ⟨all.1, named ▸ all.2.2.1⟩)
  rw [row?_acknowledgeMessages, found, Option.map_some, same]
  refine Option.filter_some_pos ?_
  simp only [Bool.not_eq_true', decide_eq_false_iff_not, named]
  exact fun all => unnamed ⟨all.1, all.2.1⟩

end MessageRelay.Database
