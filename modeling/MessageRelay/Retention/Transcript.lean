import MessageRelay.Library.History
import MessageRelay.Library.Table
import MessageRelay.Retention.Class

/-! The transcripts of the retained boxes: the purge, the sweep and the listing, statement by statement, with other
requests between any two of them. A statement whose answer is lost may land at any later time. Instants are the seconds
that `datetime('now')` gives, and its texts compare as they do. -/

namespace MessageRelay.Retention
open MessageRelay.Library

/-- A u32 as its text is parsed: digits, after a plus at most. -/
def parseU32 (s : List Char) : Option Nat :=
  let digits := if s.head? = some '+' then s.tail else s
  if digits ≠ [] ∧ digits.all Char.isDigit then
    some (digits.foldl (fun n c => 10 * n + (c.toNat - 48)) 0) |>.filter (· < 2 ^ 32)
  else none

/-- The retention of a row in days: never 0. -/
def ttlDays (raw : Option String) : Nat :=
  ((raw.bind (fun s => parseU32 (trim s.toList))).filter (1 ≤ ·)).getD 14

structure Deployment where
  cfg : RetentionConfig
  ttl : Nat

def Deployment.ofVars (prefixes ttl : Option String) : Deployment := ⟨.parse prefixes, ttlDays ttl⟩

structure Box where
  id : Nat
  boxType : String
  identityKey : String
  createdAt : Nat
  deriving DecidableEq, Repr

structure Row where
  messageId : String
  boxId : Nat
  sender : String
  recipient : String
  body : String
  createdAt : Nat
  acknowledged : Bool
  deriving DecidableEq, Repr

inductive Reason where
  | client
  | expired
  deriving DecidableEq, Repr

structure Tombstone where
  boxType : String
  purgedFor : String
  reason : Reason
  purgedAt : Nat
  deriving DecidableEq, Repr

def Tombstone.place (t : Tombstone) : String × String := (t.boxType, t.purgedFor)

/-- The statements that write. -/
inductive Statement where
  | purgeDelete (caller boxType : String)
  | purgeTombstone (caller boxType : String)
  | sweepTombstone
  | sweepDelete
  | sweepBoxes
  | gcTombstones
  deriving DecidableEq, Repr

/-- A request between two statements. -/
inductive Task where
  | checking (caller boxType : String)
  | purging (caller boxType : String)
  | marking (caller boxType : String) (deleted : Nat)
  | sweeping (rest : List Statement)
  | listing (caller boxType : String)
  | reading (caller boxType : String) (rows : List Row)
  | finished
  deriving DecidableEq, Repr

/-- The tables, the requests, and the statements whose answer was lost. -/
structure World where
  now : Nat
  boxes : List Box
  nextBoxId : Nat
  messages : List Row
  tombstones : Table Tombstone.place
  tasks : List Task
  strays : List Statement

inductive Deleter where
  | purge
  | sweep
  deriving DecidableEq, Repr

/-- What happens to the rows and the tombstones, and what the routes answer. A listing has `purgedAt` and
`purgeReason` where it has a tombstone. -/
inductive Event where
  | deleted (time : Nat) (deleter : Deleter) (boxType recipient messageId : String)
  | tombstoned (boxType purgedFor : String)
  | listed (time : Nat) (caller boxType : String) (rows : List Row) (tombstone : Option Tombstone)
  | purged (boxType : String) (deleted : Nat)
  | notRetained (boxType : String)
  | notParticipant (boxType : String)
  | internalError
  deriving DecidableEq, Repr

inductive Outcome where
  | ok
  | lost (again : Bool)
  deriving DecidableEq, Repr

inductive Input where
  | tick (seconds : Nat)
  | store (messageId sender recipient boxType body : String) (createdAt : Nat)
  | acknowledge (recipient : String) (ids : List String)
  | purge (caller boxType : String)
  | sweep
  | list (caller boxType : String)
  | advance (i : Nat) (outcome : Outcome)
  | land (j : Nat)
  | crash (i : Nat)
  deriving DecidableEq, Repr

/-- `datetime('now', '-n days')`, NULL past the year 9999. A cutoff before the epoch is before every row. -/
def daysAgo (days now : Nat) : Option Nat :=
  if now < 253402300800 ∧ days * 86400 ≤ now then some (now - days * 86400) else none

def olderThan (days now time : Nat) : Bool := (daysAgo days now).any (time < ·)

/-- Tombstones are kept for twice the retention. -/
def tombstoneDays (ttl : Nat) : Nat := min (ttl * 2) (2 ^ 32 - 1)

section
variable (d : Deployment)

def retainedBox (b : Box) : Bool := typeFilter d.cfg.likePatterns b.boxType

/-- `ORDER BY purged_at DESC LIMIT 1`. -/
def latest : Option Tombstone → Tombstone → Option Tombstone
  | none, t => some t
  | some last, t => if last.purgedAt < t.purgedAt then some t else some last

namespace World
variable (w : World)

def purgeDeletes (caller boxType : String) (row : Row) : Bool :=
  row.recipient = caller && w.boxes.any (fun b => b.id = row.boxId && b.boxType = boxType)

def sweepDeletes (row : Row) : Bool :=
  olderThan d.ttl w.now row.createdAt && w.boxes.any (fun b => b.id = row.boxId && retainedBox d b)

/-- The retained box types about to lose rows. -/
def expiringTypes : List String :=
  ((w.boxes.filter (fun b => retainedBox d b && w.messages.any (fun row =>
    row.boxId = b.id && olderThan d.ttl w.now row.createdAt))).map Box.boxType).dedup

/-- `INSERT OR REPLACE` of a tombstone of now. -/
def tombstone (reason : Reason) (purgedFor : String) (t : Table Tombstone.place) (boxType : String) :
    Table Tombstone.place :=
  t.upsert ⟨boxType, purgedFor, reason, w.now⟩

/-- One statement as it lands, and the rows and tombstones it changes. -/
def exec : Statement → World × List Event
  | .purgeDelete caller boxType =>
    ({ w with messages := w.messages.filter (fun row => !w.purgeDeletes caller boxType row) },
      (w.messages.filter (w.purgeDeletes caller boxType)).map
        (fun row => .deleted w.now .purge boxType row.recipient row.messageId))
  | .purgeTombstone caller boxType =>
    ({ w with tombstones := w.tombstone .client caller w.tombstones boxType }, [.tombstoned boxType caller])
  | .sweepTombstone =>
    ({ w with tombstones := (w.expiringTypes d).foldl (w.tombstone .expired "*") w.tombstones },
      (w.expiringTypes d).map (.tombstoned · "*"))
  | .sweepDelete =>
    ({ w with messages := w.messages.filter (fun row => !w.sweepDeletes d row) },
      (w.messages.filter (w.sweepDeletes d)).flatMap (fun row =>
        (w.boxes.filter (fun b => b.id = row.boxId)).map
          (fun b => .deleted w.now .sweep b.boxType row.recipient row.messageId)))
  | .sweepBoxes =>
    ({ w with boxes := w.boxes.filter (fun b => !(retainedBox d b && olderThan d.ttl w.now b.createdAt &&
        !w.messages.any (fun row => row.boxId = b.id))) }, [])
  | .gcTombstones =>
    ({ w with tombstones := w.tombstones.keep (fun t => !olderThan (tombstoneDays d.ttl) w.now t.purgedAt) }, [])

/-- `INSERT OR IGNORE INTO message_boxes`. -/
def ensureBox (recipient boxType : String) : World :=
  if w.boxes.any (fun b => b.boxType = boxType && b.identityKey = recipient) then w
  else { w with boxes := w.boxes ++ [⟨w.nextBoxId, boxType, recipient, w.now⟩], nextBoxId := w.nextBoxId + 1 }

/-- `INSERT OR IGNORE INTO messages`, in the recipient's box of the type. -/
def insertRow (messageId sender recipient boxType body : String) (createdAt : Nat) : World :=
  match w.boxes.find? (fun b => b.boxType = boxType && b.identityKey = recipient) with
  | none => w
  | some box =>
    if w.messages.any (fun row => row.messageId = messageId) then w
    else { w with messages := w.messages ++ [⟨messageId, box.id, sender, recipient, body, createdAt, false⟩] }

def inRetained (row : Row) : Bool := w.boxes.any (fun b => b.id = row.boxId && retainedBox d b)

/-- Rows of retained boxes are marked, the others deleted. -/
def acknowledge (recipient : String) (ids : List String) : World :=
  let named (row : Row) : Bool := row.recipient = recipient && row.messageId ∈ ids
  let kept := w.messages.filter (fun row => !named row || w.inRetained d row)
  { w with messages := kept.map (fun row => if named row then { row with acknowledged := true } else row) }

def isParticipant (caller boxType : String) : Bool :=
  w.boxes.any (fun b => b.identityKey = caller && b.boxType = boxType) ||
    w.messages.any (fun row => (row.sender = caller || row.recipient = caller) &&
      w.boxes.any (fun b => b.id = row.boxId && b.boxType = boxType))

/-- What the caller received and sent in the box, in insertion order. -/
def transcript (caller boxType : String) : List Row :=
  (w.messages.filter (fun row => (row.recipient = caller || row.sender = caller) &&
    w.boxes.any (fun b => b.id = row.boxId && b.boxType = boxType))).take 1000

/-- The later of the tombstones for the caller and for all. -/
def governing (caller boxType : String) : Option Tombstone :=
  (w.tombstones.rows.filter (fun t => t.boxType = boxType && (t.purgedFor = caller || t.purgedFor = "*"))).foldl
    latest none

end World

/-- The statement a request runs next. -/
def Task.statement : Task → Option Statement
  | .purging caller boxType => some (.purgeDelete caller boxType)
  | .marking caller boxType _ => some (.purgeTombstone caller boxType)
  | .sweeping (s :: _) => some s
  | _ => none

/-- Where a request goes on from a statement that changed so many rows. -/
def Task.written (changes : Nat) : Task → Task × List Event
  | .purging caller boxType => (.marking caller boxType changes, [])
  | .marking _ boxType deleted => (.finished, [.purged boxType deleted])
  | .sweeping (_ :: rest) => (.sweeping rest, [])
  | task => (task, [])

/-- What a request does with what it read. -/
def Task.read (w : World) : Task → Task × List Event
  | .checking caller boxType =>
    if w.isParticipant caller boxType then (.purging caller boxType, []) else (.finished, [.notParticipant boxType])
  | .listing caller boxType => (.reading caller boxType (w.transcript caller boxType), [])
  | .reading caller boxType rows => (.finished, [.listed w.now caller boxType rows (w.governing caller boxType)])
  | task => (task, [])

def transcripts : Machine World Input Event where
  step w
    | .tick seconds => ({ w with now := w.now + seconds }, [])
    | .store messageId sender recipient boxType body createdAt =>
      ((w.ensureBox recipient boxType).insertRow messageId sender recipient boxType body createdAt, [])
    | .acknowledge recipient ids => (w.acknowledge d recipient ids, [])
    | .purge caller boxType =>
      if d.cfg.retains boxType then ({ w with tasks := w.tasks ++ [.checking caller boxType] }, [])
      else (w, [.notRetained boxType])
    | .sweep =>
      if d.cfg.prefixes.isEmpty then (w, [])
      else ({ w with
        tasks := w.tasks ++ [.sweeping [.sweepTombstone, .sweepDelete, .sweepBoxes, .gcTombstones]] }, [])
    | .list caller boxType =>
      if d.cfg.retains boxType then ({ w with tasks := w.tasks ++ [.listing caller boxType] }, [])
      else (w, [.notRetained boxType])
    | .crash i => ({ w with tasks := w.tasks.set i .finished }, [])
    | .land j =>
      match w.strays[j]? with
      | none => (w, [])
      | some s => { w with strays := w.strays.eraseIdx j }.exec d s
    | .advance i outcome =>
      match w.tasks[i]? with
      | none => (w, [])
      | some task =>
        match outcome, task.statement with
        | .ok, some s =>
          let (after, changed) := w.exec d s
          let (task, answer) := task.written changed.length
          ({ after with tasks := after.tasks.set i task }, changed ++ answer)
        | .ok, none =>
          let (task, answer) := task.read w
          ({ w with tasks := w.tasks.set i task }, answer)
        | .lost again, s =>
          let w := { w with strays := w.strays ++ s.toList }
          if again then (w, []) else ({ w with tasks := w.tasks.set i .finished }, [.internalError])

end

end MessageRelay.Retention
