import MessageRelay.Send.StoreRows
import MessageRelay.Mailbox.Retried
import MessageRelay.Database.Store

/-! The two stores a send runs over: D1, where an insert is written with retries and reads back a row it may have
left itself, and the recipients' hubs, reached by a hop that is repeated once. A paid row goes to D1 over both. -/

namespace MessageRelay.Send
open MessageRelay.Library MessageRelay.Session

/-- D1 and every recipient's mailbox. -/
structure World where
  db : Database.Store
  hubs : String → Mailbox.Store

def World.empty : World := ⟨Database.Store.empty, fun _ => Mailbox.Store.empty⟩

/-- Where unpaid rows go. -/
inductive StorePath where
  | d1
  | mailbox
  deriving DecidableEq, Repr

inductive WriteEnd where
  | answered
  | failed (error : StoreError) (landed : Bool)
  deriving DecidableEq, Repr

/-- What becomes of one write: the tries whose answer was lost, each landed or not, and how the last one ends. -/
structure WriteFate where
  lost : List Bool
  ends : WriteEnd
  deriving DecidableEq, Repr

def d1WriteAttempts : Nat := 3

def WriteFate.early (fate : WriteFate) : List Bool := fate.lost.take (d1WriteAttempts - 1)

/-- A bounded retry of a D1 write. A lost try may have landed. The flag says that the answer is a retry's. -/
def withD1WriteRetry {σ α : Type} (op : σ → α × σ) (fate : WriteFate) (s : σ) : Except StoreError (α × Bool) × σ :=
  let s := fate.early.foldl (fun s landed => if landed then (op s).2 else s) s
  match fate.ends with
  | .answered => (.ok ((op s).1, !fate.early.isEmpty), (op s).2)
  | .failed e landed => (.error e, if landed then (op s).2 else s)

inductive InsertCount where
  | stored
  | duplicate
  | readBack
  deriving DecidableEq, Repr

def insertCountVerdict (changes : Nat) (retried : Bool) : InsertCount :=
  if 0 < changes then .stored else if retried then .readBack else .duplicate

def retriedRowIsOurs (found : Option Database.MessageRow) (sender recipient body : String) : Bool :=
  found.any (fun row => row.sender = sender && row.recipient = recipient && row.body = body)

/-- `INSERT OR IGNORE INTO messages`, with the rows it changed. -/
def insertIgnoreMessage (row : Database.MessageRow) (db : Database.Store) : Nat × Database.Store :=
  match db.row? row.messageId with
  | some _ => (0, db)
  | none => (1, { db with messages := db.messages.insertIgnore row })

/-- What becomes of one D1 insert. The read back may fail too. -/
structure InsertFate where
  write : WriteFate
  readBack : Option StoreError
  deriving DecidableEq, Repr

def insertOfD1 (stored : Bool) : Insert := if stored then .stored else .duplicate

def insertMessage (fate : InsertFate) (row : Database.MessageRow) (db : Database.Store) :
    Except StoreError Insert × Database.Store :=
  match withD1WriteRetry (insertIgnoreMessage row) fate.write db with
  | (.error e, db) => (.error e, db)
  | (.ok (changes, retried), db) =>
    match insertCountVerdict changes retried with
    | .stored => (.ok (insertOfD1 true), db)
    | .duplicate => (.ok (insertOfD1 false), db)
    | .readBack =>
      match fate.readBack with
      | some e => (.error e, db)
      | none =>
        (.ok (insertOfD1 (retriedRowIsOurs (db.row? row.messageId) row.sender row.recipient row.body)), db)

/-- What becomes of finding or making a box. -/
structure BoxFate where
  find : Option StoreError
  write : WriteFate
  findAgain : Option StoreError
  deriving DecidableEq, Repr

def getOrCreateMessageBox (fate : BoxFate) (recipient messageBox : String) (db : Database.Store) :
    Except StoreError Nat × Database.Store :=
  match fate.find with
  | some e => (.error e, db)
  | none =>
    match Database.findMessageBox db recipient messageBox with
    | some id => (.ok id, db)
    | none =>
      match withD1WriteRetry (fun db => ((), Database.insertBox db recipient messageBox)) fate.write db with
      | (.error e, db) => (.error e, db)
      | (.ok _, db) =>
        match fate.findAgain, Database.findMessageBox db recipient messageBox with
        | some e, _ => (.error e, db)
        | none, some id => (.ok id, db)
        | none, none => (.error ⟨false, "Failed to create message box"⟩, db)

/-- What becomes of a hop and of its one repeat. -/
structure HopFate where
  first : Option Bool
  second : WriteEnd
  deriving DecidableEq, Repr

def number (n : Nat) : Value := .number (toString n)

/-- The full mailbox's body. -/
def fullAnswer (full : Mailbox.Full) (recipient : String) : Value :=
  .object [("code", .string "ERR_INBOX_QUOTA_EXCEEDED"),
    ("description", .string ("The recipient inbox storage quota has been reached. " ++
      "Retry after messages are acknowledged or expire.")),
    ("freedBy", .string "acknowledgeMessage"), ("held", number full.held), ("limit", number full.limit),
    ("recipient", .string recipient), ("resource", .string full.resource), ("status", .string "error")]

def insertOfHop (recipient : String) : Mailbox.HopAnswer → Insert
  | .stored => .stored
  | .duplicate => .duplicate
  | .full full => .full (fullAnswer full recipient)

/-- A row handed to the recipient's hub. The repeat of a lost hop says that it is one. -/
def insertOnHub (fate : HopFate) (row : Mailbox.NewRow) (recipient : String) (nowMs : Nat) (hub : Mailbox.Store) :
    Except StoreError Insert × Mailbox.Store :=
  let hop (retry : Bool) (hub : Mailbox.Store) := Mailbox.insert hub row retry nowMs Mailbox.Bounds.ruled
  match fate.first with
  | none => (.ok (insertOfHop recipient (Mailbox.hopAnswer (hop false hub).1)), (hop false hub).2)
  | some landed =>
    let hub := if landed then (hop false hub).2 else hub
    match fate.second with
    | .answered => (.ok (insertOfHop recipient (Mailbox.hopAnswer (hop true hub).1)), (hop true hub).2)
    | .failed e landed => (.error e, if landed then (hop true hub).2 else hub)

/-- All that one attempt of a send does not decide itself. -/
structure Weather where
  boxOff : Bool
  context : String → Except StoreError (Int × Int)
  charge : Except Answer Unit
  settle : Except Answer Settled
  box : String → BoxFate
  insert : String → InsertFate
  hop : String → HopFate
  nowMs : Nat

/-- Everything goes through at once. -/
def calm : Weather where
  boxOff := false
  context _ := .ok (0, 0)
  charge := .ok ()
  settle := .error missingPayment
  box _ := ⟨none, ⟨[], .answered⟩, none⟩
  insert _ := ⟨⟨[], .answered⟩, none⟩
  hop _ := ⟨none, .answered⟩
  nowMs := 1000

namespace World

def setHub (w : World) (recipient : String) (hub : Mailbox.Store) : World :=
  { w with hubs := Function.update w.hubs recipient hub }

/-- One D1 insert of a send. -/
def insertInD1 (w : World) (weather : Weather) (messageId : String) (boxId : Nat) (sender recipient body : String)
    (beefKey : Option String) : Except StoreError Insert × World :=
  let row := Database.paidRow messageId boxId sender recipient body beefKey weather.nowMs
  let (answer, db) := insertMessage (weather.insert messageId) row w.db
  (answer, { w with db })

def boxInD1 (w : World) (weather : Weather) (recipient messageBox : String) : Except StoreError Nat × World :=
  let (answer, db) := getOrCreateMessageBox (weather.box recipient) recipient messageBox w.db
  (answer, { w with db })

/-- A mailbox send's insert: a paid row in D1, any other in the recipient's hub. -/
def insertInMailbox (w : World) (weather : Weather) (messageBox messageId : String) (sender recipient body : String)
    (beefKey : Option String) : Except StoreError Insert × World :=
  if beefKey.isSome then
    match w.boxInD1 weather recipient messageBox with
    | (.error e, w) => (.error e, w)
    | (.ok boxId, w) => w.insertInD1 weather messageId boxId sender recipient body beefKey
  else
    let (answer, hub) := insertOnHub (weather.hop messageId) ⟨messageId, messageBox, sender, body⟩ recipient
      weather.nowMs (w.hubs recipient)
    (answer, w.setHub recipient hub)

end World

/-- The store of one attempt. -/
def storeOf (path : StorePath) (weather : Weather) (messageBox : String) : SendStore World where
  boxOff _ := weather.boxOff
  readSendContext recipient _ box w :=
    ((weather.context recipient).map (fun fees =>
      ⟨fees.1, fees.2, match path with | .d1 => Database.findMessageBox w.db recipient box | .mailbox => some 0⟩), w)
  charge _ _ w := (weather.charge, w)
  settle _ _ _ _ _ w := (weather.settle, w)
  getOrCreateMessageBox recipient box w :=
    match path with
    | .d1 => w.boxInD1 weather recipient box
    | .mailbox => (.ok 0, w)
  insertMessage messageId boxId sender recipient body beefKey w :=
    match path with
    | .d1 => w.insertInD1 weather messageId boxId sender recipient body beefKey
    | .mailbox => w.insertInMailbox weather messageBox messageId sender recipient body beefKey
  forgetUnnamed _ _ _ _ w := w

/-- One attempt of a send. -/
def processSend (path : StorePath) (weather : Weather) (request : ValidatedSendMessage) (sender : String) (w : World) :
    SendOutcome × AfterAnswer × World :=
  storeRows (storeOf path weather request.messageBox) request sender w

end MessageRelay.Send
