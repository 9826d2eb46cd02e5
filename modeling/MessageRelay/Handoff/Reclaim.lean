import MessageRelay.Library.Machine

/-! One payment's key: the object at rest under it, the rows that name it, the claim a reclaim holds on it, and
the requests that meet over it. A reclaim claims, looks, stamps, looks again, stamps again, clears and unclaims.
A send stores its rows, then reads the claim and stamps the object. -/

namespace MessageRelay.Handoff
open MessageRelay.Library

structure Stamp where
  size : Nat
  etag : String
  deriving DecidableEq, Repr

/-- A row of the messages that names the key, with the send that stored it. -/
structure NamingRow where
  messageId : String
  send : Nat
  acknowledged : Bool
  deriving DecidableEq, Repr

/-- How a write came back. One that failed may have landed. -/
inductive Outcome where
  | ok
  | failed
  | failedLanded
  deriving DecidableEq, Repr

def Outcome.landed : Outcome → Bool
  | .failed => false
  | _ => true

/-- Where a reclaim stands, named by what it found last. -/
inductive ReclaimTask where
  | idle
  | claimed
  | unnamed
  | stamped (looked : Stamp)
  | unnamedStill (looked : Stamp)
  | unchanged
  | ended
  deriving DecidableEq, Repr

/-- Where a send stands with the key. -/
inductive SendTask where
  | idle
  | naming
  | claimSeen
  | ended (orphaned : Bool)
  deriving DecidableEq, Repr

/-- The key in both stores. A fee or an announcement may be owed on it. -/
structure World where
  object : Option Stamp
  claimedAt : Option Nat
  rows : List NamingRow
  owed : Bool
  reclaims : Nat → ReclaimTask
  sends : Nat → SendTask

inductive Input where
  | reclaim (task : Nat) (outcome : Outcome) (now : Nat)
  | reclaimDies (task : Nat)
  | sendStores (send : Nat) (messageId : String)
  | sendClaimed (send : Nat) (answers : Bool) (now : Nat)
  | sendStamps (send : Nat) (answers : Bool)
  | put (stamp : Stamp)
  | acknowledge (messageId : String)
  | delete (messageId : String)
  | owe (owed : Bool)
  deriving DecidableEq, Repr

def World.start (object : Option Stamp) (claimedAt : Option Nat) (owed : Bool) : World :=
  { object, claimedAt, rows := [], owed, reclaims := fun _ => .idle, sends := fun _ => .idle }

namespace World

/-- A stored row that is not retired names the key. -/
def names (w : World) : Bool := w.rows.any (fun r => !r.acknowledged)

def named (w : World) : Bool := w.names || w.owed

/-- A claim older than five minutes is no claim. -/
def claimed (w : World) (now : Nat) : Bool := w.claimedAt.any (fun claimedAt => now - 300 ≤ claimedAt)

def setReclaim (w : World) (i : Nat) (task : ReclaimTask) : World :=
  { w with reclaims := Function.update w.reclaims i task }

def setSend (w : World) (j : Nat) (task : SendTask) : World := { w with sends := Function.update w.sends j task }

end World

/-- The next step of a reclaim. Whatever it fails at, it unclaims what it claimed. -/
def reclaimStep (w : World) (i : Nat) (outcome : Outcome) (now : Nat) : World :=
  match w.reclaims i with
  | .idle =>
    let w := if outcome.landed then { w with claimedAt := some now } else w
    w.setReclaim i (if outcome = .ok then .claimed else .idle)
  | .claimed => w.setReclaim i (if outcome ≠ .ok || w.named then .ended else .unnamed)
  | .unnamed =>
    match w.object with
    | some looked => w.setReclaim i (if outcome ≠ .ok then .ended else .stamped looked)
    | none => w.setReclaim i .ended
  | .stamped looked => w.setReclaim i (if outcome ≠ .ok || w.named then .ended else .unnamedStill looked)
  | .unnamedStill looked =>
    w.setReclaim i (if outcome ≠ .ok || w.object ≠ some looked then .ended else .unchanged)
  | .unchanged => { w with object := if outcome.landed then none else w.object }.setReclaim i .ended
  | .ended => { w with claimedAt := if outcome.landed then none else w.claimedAt }.setReclaim i .idle

/-- A send stores a row under the key. An id already stored is ignored. -/
def sendStoresStep (w : World) (j : Nat) (messageId : String) : World :=
  match w.sends j with
  | .idle | .naming =>
    if w.rows.any (fun r => r.messageId = messageId) then w
    else { w with rows := w.rows ++ [NamingRow.mk messageId j false] }.setSend j .naming
  | _ => w

/-- The first half of `orphaned`. A claim that cannot be read is none. -/
def sendClaimedStep (w : World) (j : Nat) (answers : Bool) (now : Nat) : World :=
  match w.sends j with
  | .naming => w.setSend j (if answers && w.claimed now then .claimSeen else .ended false)
  | _ => w

/-- The second half of `orphaned`. An object that cannot be stamped is not taken for gone. -/
def sendStampsStep (w : World) (j : Nat) (answers : Bool) : World :=
  match w.sends j with
  | .claimSeen => w.setSend j (.ended (answers && w.object.isNone))
  | _ => w

def step (w : World) : Input → World
  | .reclaim i outcome now => reclaimStep w i outcome now
  | .reclaimDies i => w.setReclaim i .idle
  | .sendStores j messageId => sendStoresStep w j messageId
  | .sendClaimed j answers now => sendClaimedStep w j answers now
  | .sendStamps j answers => sendStampsStep w j answers
  | .put stamp => { w with object := some stamp }
  | .acknowledge messageId =>
    { w with rows := w.rows.map (fun r => if r.messageId = messageId then { r with acknowledged := true } else r) }
  | .delete messageId => { w with rows := w.rows.filter (fun r => r.messageId ≠ messageId) }
  | .owe owed => { w with owed }

def keyMachine : Machine World Input Empty := ⟨fun w input => (step w input, [])⟩

end MessageRelay.Handoff
