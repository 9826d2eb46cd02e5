import MessageRelay.Library.Like
import MessageRelay.Mailbox.Store

/-! The D1 tables the relay and its archive share, with the statements the send, the listing and
the legacy acknowledgment run on them. Message rows are kept in the order they were inserted. -/

namespace MessageRelay.Database
open MessageRelay.Library MessageRelay.Mailbox

/-- A recipient's box of one type. -/
structure BoxRow where
  messageBoxId : Nat
  boxType : String
  identityKey : String
  deriving DecidableEq, Repr

def BoxRow.owner (b : BoxRow) : String × String := (b.identityKey, b.boxType)

/-- A row of `messages`. Version 0 is a row the archive never wrote. -/
structure MessageRow where
  messageId : String
  messageBoxId : Nat
  sender : String
  recipient : String
  body : String
  createdAt : String
  updatedAt : String
  acknowledgedAt : Option String
  beefKey : Option String
  archiveVersion : Nat
  deriving DecidableEq, Repr

/-- Both tables under their uniqueness constraints, and the next box id. -/
structure Store where
  boxes : Table BoxRow.owner
  nextBoxId : Nat
  messages : Table MessageRow.messageId

def Store.empty : Store := ⟨Table.empty, 1, Table.empty⟩

/-- The row under a message id. -/
def Store.row? (db : Store) (id : String) : Option MessageRow := db.messages.find? id

def findMessageBox (db : Store) (identityKey boxType : String) : Option Nat :=
  (db.boxes.find? (identityKey, boxType)).map BoxRow.messageBoxId

/-- `INSERT OR IGNORE INTO message_boxes`. -/
def insertBox (db : Store) (identityKey boxType : String) : Store :=
  { db with boxes := db.boxes.insertIgnore ⟨db.nextBoxId, boxType, identityKey⟩, nextBoxId := db.nextBoxId + 1 }

/-- The row a paid send writes, unacknowledged and unknown to the archive. -/
def paidRow (messageId : String) (boxId : Nat) (sender recipient body : String) (beefKey : Option String)
    (nowMs : Nat) : MessageRow :=
  { messageId := messageId, messageBoxId := boxId, sender := sender, recipient := recipient, body := body
    createdAt := sqliteTime nowMs, updatedAt := sqliteTime nowMs, acknowledgedAt := none
    beefKey := beefKey, archiveVersion := 0 }

/-- A paid send's insert: its box made first, then the row unless its id is taken by anyone. -/
def insertMessage (db : Store) (messageId messageBox sender recipient body : String)
    (beefKey : Option String) (nowMs : Nat) : Bool × Store :=
  let boxed := insertBox db recipient messageBox
  match findMessageBox boxed recipient messageBox, boxed.row? messageId with
  | some boxId, none =>
    let row := paidRow messageId boxId sender recipient body beefKey nowMs
    (true, { boxed with messages := boxed.messages.insertIgnore row })
  | _, _ => (false, boxed)

/-- A recipient's unacknowledged rows of a box. -/
def liveRows (db : Store) (recipient : String) (boxId : Nat) : List MessageRow :=
  db.messages.rows.filter
    (fun r => r.recipient = recipient ∧ r.messageBoxId = boxId ∧ r.acknowledgedAt = none)

def MessageRow.listed (r : MessageRow) : MessageDbRow :=
  ⟨some r.messageId, some r.body, some r.sender, some r.createdAt, some r.updatedAt⟩

/-- The rows of a box inside the limit and the byte budget. -/
def listRows (db : Store) (recipient : String) (boxId : Nat) : List MessageDbRow :=
  (withinBudget (fun r : MessageRow => r.body.utf8ByteSize) listInlineBytes 0
    ((liveRows db recipient boxId).take listLimit)).map MessageRow.listed

/-- A box's listing. A recipient without the box has an empty one. -/
def listMessages (db : Store) (identityKey boxType : String) : List MessageDbRow :=
  match findMessageBox db identityKey boxType with
  | some boxId => listRows db identityKey boxId
  | none => []

/-- Of some ids, those the recipient holds unacknowledged. -/
def liveMessageIds (db : Store) (recipient : String) (ids : List String) : List String :=
  (chunks idsPerStatement ids).flatMap (fun chunk => (db.messages.rows.filter (fun r =>
    r.recipient = recipient ∧ r.acknowledgedAt = none ∧ r.messageId ∈ chunk)).map MessageRow.messageId)

/-- The `LIKE` of a configured prefix as an escaped pattern. -/
def likePrefix (pre boxType : String) : Bool := like (escapeLike pre.toList ++ ['%']) boxType.toList

/-- The row's box is of a retained type. -/
def inRetainedBox (prefixes : List String) (db : Store) (r : MessageRow) : Bool :=
  db.boxes.rows.any (fun b => b.messageBoxId = r.messageBoxId && prefixes.any (likePrefix · b.boxType))

def markAcknowledged (prefixes : List String) (recipient : String) (ids : List String) (nowMs : Nat)
    (db : Store) (r : MessageRow) : MessageRow :=
  if r.recipient = recipient ∧ r.acknowledgedAt = none ∧ r.messageId ∈ ids ∧ inRetainedBox prefixes db r then
    { r with acknowledgedAt := some (sqliteTime nowMs), updatedAt := sqliteTime nowMs }
  else r

theorem markAcknowledged_messageId (prefixes : List String) (recipient : String) (ids : List String)
    (nowMs : Nat) (db : Store) (r : MessageRow) :
    (markAcknowledged prefixes recipient ids nowMs db r).messageId = r.messageId := by
  unfold markAcknowledged
  split <;> rfl

/-- One batch: rows of retained boxes are marked, every other row named is deleted. -/
def acknowledgeMessages (prefixes : List String) (db : Store) (recipient : String) (ids : List String)
    (nowMs : Nat) : Store :=
  let marked := db.messages.map (markAcknowledged prefixes recipient ids nowMs db)
    (markAcknowledged_messageId prefixes recipient ids nowMs db)
  let deleted (r : MessageRow) : Bool :=
    r.recipient = recipient ∧ r.messageId ∈ ids ∧ inRetainedBox prefixes db r = false
  { db with messages := marked.keep (fun r => !deleted r) }

end MessageRelay.Database
