import MessageRelay.Relay.Hubs

/-! The relay around the hubs: paid sends whose rows stay in D1, the acknowledgment that asks D1 for
what the mailbox does not hold, and the listing that merges both stores. Each request takes its
reads and writes one at a time, so that any other step may fall between them. -/

namespace MessageRelay.Relay
open MessageRelay.Library MessageRelay.Mailbox MessageRelay.Archive MessageRelay.Database

/-- Where an acknowledgment stands after its hub's part. -/
inductive AckTask where
  | idle
  /-- Ids the mailbox did not hold live, to be asked of D1. -/
  | missing (recipient : String) (ids : List String)
  /-- Those D1 held live when it was asked. -/
  | live (recipient : String) (ids : List String)

/-- Where a listing stands. The mailbox's rows are read at its start. -/
inductive Listing where
  | idle
  | mailboxRead (recipient messageBox : String) (rows : List MessageDbRow)
  | boxFound (recipient : String) (boxId : Nat) (rows : List MessageDbRow)
  | d1Read (recipient : String) (d1 rows : List MessageDbRow)

structure World where
  hubs : Hubs
  acks : Nat → AckTask
  listings : Nat → Listing

inductive WorldEvent where
  | hub (event : HubEvent)
  | paid (recipient messageBox messageId sender body : String)
  | acknowledging (recipient : String) (ids : List String)
  | acknowledged (recipient : String) (ids : List String)
  | ackBegan (task : Nat) (recipient : String) (ids : List String)
  | ackAnswered (task : Nat)
  | listBegan (task : Nat)
  | listed (task : Nat) (recipient : String) (rows : List MessageDbRow)
  deriving DecidableEq, Repr

inductive WorldInput where
  | hub (input : HubInput)
  | paid (recipient messageBox messageId sender body : String) (beefKey : Option String) (nowMs : Nat)
  | ackBegin (task : Nat) (recipient : String) (ids : List String) (retry : Bool) (nowMs : Nat)
  | ackLive (task : Nat)
  | ackWrite (task : Nat) (nowMs : Nat) (answered : Bool)
  | listBegin (task : Nat) (recipient messageBox : String)
  | listBox (task : Nat)
  | listD1 (task : Nat)
  | listFinish (task : Nat)
  | ackFail (task : Nat)
  | listFail (task : Nat)
  deriving DecidableEq, Repr

/-- Empty mailboxes over the rows D1 already held. -/
def World.start (db : Database.Store) : World :=
  { hubs := Hubs.start db, acks := fun _ => .idle, listings := fun _ => .idle }

namespace World

def setAck (w : World) (t : Nat) (task : AckTask) : World := { w with acks := Function.update w.acks t task }

def setListing (w : World) (t : Nat) (listing : Listing) : World :=
  { w with listings := Function.update w.listings t listing }

def setMailbox (w : World) (recipient : String) (mb : Mailbox.Store) : World :=
  { w with hubs := w.hubs.setMailbox recipient mb }

def setDb (w : World) (db : Database.Store) : World := { w with hubs := { w.hubs with db := db } }

end World

/-- The ids an input names to be acknowledged. -/
def acknowledgingOf : HubInput → List WorldEvent
  | .acknowledge recipient ids _ _ => [.acknowledging recipient ids]
  | _ => []

def hubWorldStep (w : World) (input : HubInput) : World × List WorldEvent :=
  let (hubs, events) := hubStep w.hubs input
  ({ w with hubs := hubs }, acknowledgingOf input ++ events.map .hub)

/-- A paid send's row, written to D1 and not to the mailbox. -/
def paidStep (w : World) (recipient messageBox messageId sender body : String) (beefKey : Option String)
    (nowMs : Nat) : World × List WorldEvent :=
  let (stored, db) := insertMessage w.hubs.db messageId messageBox sender recipient body beefKey nowMs
  (w.setDb db, if stored then [.paid recipient messageBox messageId sender body] else [])

/-- The hub's part of an acknowledgment. It is answered at once when nothing is missing. -/
def ackBeginStep (w : World) (t : Nat) (recipient : String) (ids : List String) (retry : Bool) (nowMs : Nat) :
    World × List WorldEvent :=
  match w.acks t with
  | .idle =>
    let (moved, events) := hubWorldStep w (.acknowledge recipient ids retry nowMs)
    let missing := (Mailbox.acknowledge (w.hubs.mailboxes recipient) ids retry nowMs).1.missing
    if missing = [] then (moved, .ackBegan t recipient ids :: events ++ [.ackAnswered t])
    else (moved.setAck t (.missing recipient missing), .ackBegan t recipient ids :: events)
  | _ => (w, [])

/-- D1 asked which of the missing ids it holds live. -/
def ackLiveStep (w : World) (t : Nat) : World × List WorldEvent :=
  match w.acks t with
  | .missing recipient ids =>
    let live := liveMessageIds w.hubs.db recipient ids
    if live = [] then (w.setAck t .idle, [.ackAnswered t]) else (w.setAck t (.live recipient live), [])
  | _ => (w, [])

/-- Those ids acknowledged in D1, in one batch. -/
def ackWriteStep (prefixes : List String) (w : World) (t nowMs : Nat) (answered : Bool) :
    World × List WorldEvent :=
  match w.acks t with
  | .live recipient ids =>
    ((w.setDb (acknowledgeMessages prefixes w.hubs.db recipient ids nowMs)).setAck t .idle,
      .acknowledged recipient ids :: (if answered then [.ackAnswered t] else []))
  | _ => (w, [])

def listBeginStep (w : World) (t : Nat) (recipient messageBox : String) : World × List WorldEvent :=
  match w.listings t with
  | .idle =>
    let rows := Mailbox.list (w.hubs.mailboxes recipient) messageBox listLimit listInlineBytes
    (w.setListing t (.mailboxRead recipient messageBox rows), [.listBegan t])
  | _ => (w, [])

def listBoxStep (w : World) (t : Nat) : World :=
  match w.listings t with
  | .mailboxRead recipient messageBox rows =>
    match findMessageBox w.hubs.db recipient messageBox with
    | some boxId => w.setListing t (.boxFound recipient boxId rows)
    | none => w.setListing t (.d1Read recipient [] rows)
  | _ => w

def listD1Step (w : World) (t : Nat) : World :=
  match w.listings t with
  | .boxFound recipient boxId rows => w.setListing t (.d1Read recipient (listRows w.hubs.db recipient boxId) rows)
  | _ => w

/-- The D1 rows the mailbox holds by now are dropped, and the two sides merged. -/
def mergeListing (mb : Mailbox.Store) (d1 rows : List MessageDbRow) : List MessageDbRow :=
  merge d1 rows (heldIds mb (d1.filterMap MessageDbRow.messageId)) .d1First listLimit listInlineBytes

def listFinishStep (w : World) (t : Nat) : World × List WorldEvent :=
  match w.listings t with
  | .d1Read recipient d1 rows =>
    (w.setListing t .idle, [.listed t recipient (mergeListing (w.hubs.mailboxes recipient) d1 rows)])
  | _ => (w, [])

def worldStep (prefixes : List String) (w : World) : WorldInput → World × List WorldEvent
  | .hub input => hubWorldStep w input
  | .paid recipient messageBox messageId sender body beefKey nowMs =>
    paidStep w recipient messageBox messageId sender body beefKey nowMs
  | .ackBegin t recipient ids retry nowMs => ackBeginStep w t recipient ids retry nowMs
  | .ackLive t => ackLiveStep w t
  | .ackWrite t nowMs answered => ackWriteStep prefixes w t nowMs answered
  | .listBegin t recipient messageBox => listBeginStep w t recipient messageBox
  | .listBox t => (listBoxStep w t, [])
  | .listD1 t => (listD1Step w t, [])
  | .listFinish t => listFinishStep w t
  | .ackFail t => (w.setAck t .idle, [])
  | .listFail t => (w.setListing t .idle, [])

def worldMachine (prefixes : List String) : Machine World WorldInput WorldEvent := ⟨worldStep prefixes⟩

/-- A listing with nothing between its reads. -/
def handleList (w : Hubs) (recipient messageBox : String) : List MessageDbRow :=
  mergeListing (w.mailboxes recipient) (listMessages w.db recipient messageBox)
    (Mailbox.list (w.mailboxes recipient) messageBox listLimit listInlineBytes)

/-- The listing's own steps, run one after the other, list that. -/
theorem listing_uninterrupted (prefixes : List String) (c : Config World WorldEvent) (t : Nat)
    (recipient messageBox : String) (free : c.state.listings t = .idle) :
    ((worldMachine prefixes).run c [.listBegin t recipient messageBox, .listBox t, .listD1 t, .listFinish t]).log =
      c.log ++ [.listBegan t] ++ [.listed t recipient (handleList c.state.hubs recipient messageBox)] := by
  cases found : findMessageBox c.state.hubs.db recipient messageBox with
  | none =>
    simp [Machine.run, Machine.advance, worldMachine, worldStep, listBeginStep, free, listBoxStep, listD1Step,
      listFinishStep, World.setListing, found, handleList, listMessages]
  | some boxId =>
    simp [Machine.run, Machine.advance, worldMachine, worldStep, listBeginStep, free, listBoxStep, listD1Step,
      listFinishStep, World.setListing, found, handleList, listMessages]

end MessageRelay.Relay
