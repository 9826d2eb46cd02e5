import MessageRelay.Library.Machine
import MessageRelay.Archive.Batch

/-! The recipients' hubs, the queue between them and the archive, and the archive consumers, as one
machine. Every message once handed to the queue may be delivered at any later time, any number of
times and in any batch, or never; every pass of a consumer takes its steps between those of others. -/

namespace MessageRelay.Relay
open MessageRelay.Library MessageRelay.Mailbox MessageRelay.Archive MessageRelay.Database

inductive Pass where
  | idle
  /-- Parsed; the bodies left in hubs are being read. -/
  | reading (batch : List ArchiveMessage)
  /-- The held read is made and the batch planned against it. -/
  | planned (batch : List ArchiveMessage) (verdicts : List Verdict)
  /-- Written; these hubs are still to be told. -/
  | telling (dones : List (String × List Done))

/-- The mailbox of each recipient, D1, everything ever handed to the queue, and the passes. -/
structure Hubs where
  mailboxes : String → Mailbox.Store
  db : Database.Store
  queue : List ArchiveMessage
  passes : Nat → Pass

/-- What can be seen of a mailbox row's life, by its hub and its place. -/
inductive HubEvent where
  | stored (recipient : String) (seq : Nat) (row : NewRow)
  | deleted (recipient : String) (seq : Nat) (collision : Bool)
  | bodyDropped (recipient : String) (seq : Nat)
  deriving DecidableEq, Repr

inductive HubInput where
  | insert (recipient : String) (row : NewRow) (retry : Bool) (nowMs : Nat)
  | acknowledge (recipient : String) (ids : List String) (retry : Bool) (nowMs : Nat)
  | replay (recipient : String) (nowMs : Nat)
  | deliver (pass : Nat) (batch : List ArchiveMessage)
  | readBodies (pass : Nat) (recipient : String) (answered : Bool)
  | plan (pass : Nat)
  | write (pass : Nat) (nowMs : Nat) (answered : Bool)
  | tell (pass : Nat) (delivered : Bool)
  | abandon (pass : Nat)
  deriving DecidableEq, Repr

def Hubs.start (db : Database.Store) : Hubs :=
  { mailboxes := fun _ => Mailbox.Store.empty, db := db, queue := [], passes := fun _ => .idle }

namespace Hubs

def setMailbox (w : Hubs) (recipient : String) (mb : Mailbox.Store) : Hubs :=
  { w with mailboxes := Function.update w.mailboxes recipient mb }

def setPass (w : Hubs) (p : Nat) (pass : Pass) : Hubs :=
  { w with passes := Function.update w.passes p pass }

/-- The archive messages of some rows, handed to the queue after the answer. -/
def enqueueAfter (w : Hubs) (recipient : String) (rows : List ArchiveRow) : Hubs :=
  { w with queue := w.queue ++ rows.map (fun r => archiveMessage r recipient) }

end Hubs

/-- The rows an operation deleted, and those whose body it set to NULL. -/
def changes (recipient : String) (collision : Bool) (before after : Mailbox.Store) : List HubEvent :=
  before.rows.rows.filterMap (fun r =>
    match after.find? r.messageId with
    | none => some (.deleted recipient r.seq collision)
    | some r' => if r.body.isSome && r'.body.isNone then some (.bodyDropped recipient r.seq) else none)

def takeDones (recipient : String) : List Done → Mailbox.Store → Mailbox.Store × List HubEvent
  | [], mb => (mb, [])
  | d :: rest, mb =>
    let next := archiveDoneOne mb d
    let (final, later) := takeDones recipient rest next
    (final, changes recipient d.collision mb next ++ later)

theorem takeDones_archiveDone (recipient : String) (done : List Done) (mb : Mailbox.Store) :
    (takeDones recipient done mb).1 = archiveDone mb done := by
  induction done generalizing mb with
  | nil => rfl
  | cons d rest ih => exact ih (archiveDoneOne mb d)

def insertStep (w : Hubs) (recipient : String) (row : NewRow) (retry : Bool) (nowMs : Nat) :
    Hubs × List HubEvent :=
  let mb := w.mailboxes recipient
  match Mailbox.insert mb row retry nowMs Bounds.ruled with
  | (.stored, mb') =>
    ((w.setMailbox recipient mb').enqueueAfter recipient (archiveRows mb' [row.messageId]),
      [.stored recipient mb.nextSeq row])
  | _ => (w, [])

def acknowledgeStep (w : Hubs) (recipient : String) (ids : List String) (retry : Bool) (nowMs : Nat) :
    Hubs × List HubEvent :=
  let mb := w.mailboxes recipient
  let (acked, mb') := Mailbox.acknowledge mb ids retry nowMs
  ((w.setMailbox recipient mb').enqueueAfter recipient (archiveRows mb' acked.acknowledged),
    changes recipient false mb mb')

def replayStep (w : Hubs) (recipient : String) (nowMs : Nat) : Hubs × List HubEvent :=
  let (rows, mb') := takeOwedDue (w.mailboxes recipient) nowMs
  ((w.setMailbox recipient mb').enqueueAfter recipient rows, [])

/-- A delivery of messages the queue was handed. What does not parse is dropped. -/
def deliverStep (w : Hubs) (p : Nat) (batch : List ArchiveMessage) : Hubs :=
  match w.passes p with
  | .idle =>
    if batch.all (· ∈ w.queue) then
      w.setPass p (.reading (batch.filter (fun m => (parse m).isOk)))
    else w
  | _ => w

/-- One recipient's hub read for the bodies it kept. Unanswered, its messages leave the pass. -/
def readBodiesStep (w : Hubs) (p : Nat) (recipient : String) (answered : Bool) : Hubs :=
  match w.passes p with
  | .reading batch =>
    if answered then
      let ids := (batch.filter (fun m => needsHub m && m.recipient = recipient)).map ArchiveMessage.messageId
      w.setPass p (.reading (fillBodies recipient (archiveRows (w.mailboxes recipient) ids) batch))
    else
      w.setPass p (.reading (batch.filter (fun m => !(needsHub m && m.recipient = recipient))))
  | _ => w

def planStep (w : Hubs) (p : Nat) : Hubs :=
  match w.passes p with
  | .reading batch =>
    if batch.any needsHub then w else w.setPass p (.planned batch (plan batch (heldBy w.db batch)))
  | _ => w

/-- The applied messages written as one D1 batch. Unanswered, the pass ends and the queue retries. -/
def writeStep (w : Hubs) (p : Nat) (nowMs : Nat) (answered : Bool) : Hubs :=
  match w.passes p with
  | .planned batch verdicts =>
    let written := { w with db := writeBatch nowMs w.db (applied batch verdicts) }
    written.setPass p (if answered then .telling (doneByRecipient batch verdicts) else .idle)
  | _ => w

/-- The next recipient's hub told what the archive holds, or missed. -/
def tellStep (w : Hubs) (p : Nat) (delivered : Bool) : Hubs × List HubEvent :=
  match w.passes p with
  | .telling ((recipient, done) :: rest) =>
    if delivered then
      let (mb', events) := takeDones recipient done (w.mailboxes recipient)
      ((w.setMailbox recipient mb').setPass p (.telling rest), events)
    else (w.setPass p (.telling rest), [])
  | .telling [] => (w.setPass p .idle, [])
  | _ => (w, [])

def hubStep (w : Hubs) : HubInput → Hubs × List HubEvent
  | .insert recipient row retry nowMs => insertStep w recipient row retry nowMs
  | .acknowledge recipient ids retry nowMs => acknowledgeStep w recipient ids retry nowMs
  | .replay recipient nowMs => replayStep w recipient nowMs
  | .deliver p batch => (deliverStep w p batch, [])
  | .readBodies p recipient answered => (readBodiesStep w p recipient answered, [])
  | .plan p => (planStep w p, [])
  | .write p nowMs answered => (writeStep w p nowMs answered, [])
  | .tell p delivered => tellStep w p delivered
  | .abandon p => (w.setPass p .idle, [])

def hubMachine : Machine Hubs HubInput HubEvent := ⟨hubStep⟩

end MessageRelay.Relay
