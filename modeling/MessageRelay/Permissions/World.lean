import MessageRelay.Library.Machine

/-! A recipient's permissions in D1, the copy its hub keeps of them for the send path, and the two
requests that meet over it: the context of a send, which reads the copy, awaits D1 and keeps what D1
answered, and a change, which writes D1 and then has the hub forget its copy. -/

namespace MessageRelay.Permissions
open MessageRelay.Library

/-- A row of the recipient's permissions. No sender is the box's own rule. -/
structure PermissionRow where
  sender : Option String
  messageBox : String
  recipientFee : Int
  deriving DecidableEq, Repr

def smartDefaultFee (boxType : String) : Int := if boxType = "notifications" then 10 else 0

/-- The upsert of a permission. A row without a sender never conflicts, NULLs being distinct. -/
def setPermission (rows : List PermissionRow) (sender : Option String) (messageBox : String) (fee : Int) :
    List PermissionRow :=
  let same (r : PermissionRow) : Bool := sender.isSome && r.sender = sender && r.messageBox = messageBox
  if rows.any same then rows.map (fun r => if same r then { r with recipientFee := fee } else r)
  else rows ++ [⟨sender, messageBox, fee⟩]

/-- The recipient's fee: the sender's own row, else the box's, else the default. -/
def recipientFee (rows : List PermissionRow) (sender messageBox : String) : Int :=
  match rows.find? (fun r => r.sender = some sender && r.messageBox = messageBox) with
  | some r => r.recipientFee
  | none =>
    match rows.find? (fun r => r.sender = none && r.messageBox = messageBox) with
    | some r => r.recipientFee
    | none => smartDefaultFee messageBox

def permissionsCopyTtlMs : Nat := 600000

/-- What D1 answered for a sender and box, and when it was asked. -/
structure CopyRow where
  sender : String
  messageBox : String
  recipientFee : Int
  serverFee : Int
  copiedAt : Nat
  deriving DecidableEq, Repr

/-- The copy for a sender and box while it is young. -/
def permissionsCopy (copies : List CopyRow) (sender messageBox : String) (nowMs : Nat) : Option (Int × Int) :=
  (copies.find? (fun r => r.sender = sender && r.messageBox = messageBox)).bind (fun r =>
    if nowMs - r.copiedAt < permissionsCopyTtlMs then some (r.recipientFee, r.serverFee) else none)

/-- `INSERT OR REPLACE INTO permissions_copy`. -/
def keepPermissions (copies : List CopyRow) (sender messageBox : String) (fee serverFee : Int) (nowMs : Nat) :
    List CopyRow :=
  copies.filter (fun r => !(r.sender = sender && r.messageBox = messageBox)) ++
    [⟨sender, messageBox, fee, serverFee, nowMs⟩]

def forgetPermissions : List CopyRow := []

/-- Where a context request stands. -/
inductive ContextTask where
  | idle
  | asking (sender messageBox : String) (nowMs : Nat)
  | read (sender messageBox : String) (nowMs : Nat) (fee serverFee : Int)
  deriving DecidableEq, Repr

/-- One recipient's hub over D1. A set that wrote D1 has its forget still to come. -/
structure World where
  db : List PermissionRow
  copies : List CopyRow
  contexts : Nat → ContextTask
  sets : Nat → Bool

inductive Event where
  | read (context : Nat)
  | answered (context : Nat) (sender messageBox : String) (fee serverFee : Int)
  | wrote (set : Nat) (sender : Option String) (messageBox : String) (fee : Int)
  | forgot (set : Nat)
  deriving DecidableEq, Repr

inductive Input where
  | contextBegin (context : Nat) (sender messageBox : String) (nowMs : Nat)
  | contextRead (context : Nat)
  | contextKeep (context : Nat) (kept : Bool)
  | contextFail (context : Nat)
  | setWrite (set : Nat) (sender : Option String) (messageBox : String) (fee : Int)
  | setForget (set : Nat)
  | setFail (set : Nat)
  deriving DecidableEq, Repr

def World.start (db : List PermissionRow) : World :=
  { db := db, copies := [], contexts := fun _ => .idle, sets := fun _ => false }

namespace World

def setContext (w : World) (t : Nat) (task : ContextTask) : World :=
  { w with contexts := Function.update w.contexts t task }

def setSet (w : World) (s : Nat) (written : Bool) : World := { w with sets := Function.update w.sets s written }

end World

/-- The copy answers at once, or D1 is asked. -/
def contextBeginStep (w : World) (t : Nat) (sender messageBox : String) (nowMs : Nat) : World × List Event :=
  match w.contexts t with
  | .idle =>
    match permissionsCopy w.copies sender messageBox nowMs with
    | some (fee, serverFee) => (w, [.answered t sender messageBox fee serverFee])
    | none => (w.setContext t (.asking sender messageBox nowMs), [])
  | _ => (w, [])

def contextReadStep (serverFees : String → Int) (w : World) (t : Nat) : World × List Event :=
  match w.contexts t with
  | .asking sender messageBox nowMs =>
    (w.setContext t (.read sender messageBox nowMs (recipientFee w.db sender messageBox) (serverFees messageBox)),
      [.read t])
  | _ => (w, [])

/-- D1's answer is kept, under the time the request began at, and answered. A failed keep is only logged. -/
def contextKeepStep (w : World) (t : Nat) (kept : Bool) : World × List Event :=
  match w.contexts t with
  | .read sender messageBox nowMs fee serverFee =>
    let copies := if kept then keepPermissions w.copies sender messageBox fee serverFee nowMs else w.copies
    ({ w with copies := copies }.setContext t .idle, [.answered t sender messageBox fee serverFee])
  | _ => (w, [])

def setWriteStep (w : World) (s : Nat) (sender : Option String) (messageBox : String) (fee : Int) :
    World × List Event :=
  if w.sets s then (w, [])
  else ({ w with db := setPermission w.db sender messageBox fee }.setSet s true, [.wrote s sender messageBox fee])

def setForgetStep (w : World) (s : Nat) : World × List Event :=
  if w.sets s then ({ w with copies := forgetPermissions }.setSet s false, [.forgot s]) else (w, [])

def step (serverFees : String → Int) (w : World) : Input → World × List Event
  | .contextBegin t sender messageBox nowMs => contextBeginStep w t sender messageBox nowMs
  | .contextRead t => contextReadStep serverFees w t
  | .contextKeep t kept => contextKeepStep w t kept
  | .contextFail t => (w.setContext t .idle, [])
  | .setWrite s sender messageBox fee => setWriteStep w s sender messageBox fee
  | .setForget s => setForgetStep w s
  | .setFail s => (w.setSet s false, [])

def permissionMachine (serverFees : String → Int) : Machine World Input Event := ⟨step serverFees⟩

end MessageRelay.Permissions
