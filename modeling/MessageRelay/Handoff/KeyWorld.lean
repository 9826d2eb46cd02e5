import MessageRelay.Handoff.HandOff

/-! One payment's key with everything that can name or record it, and every task that works on it, one store access
a step: the hand-off of a send and its rows, the drain of its fee, the re-ask of its announcement, and the reclaims
of all of these and of the two passes. -/

namespace MessageRelay.Handoff
open MessageRelay.Library MessageRelay.Send

/-- A payment as the hand-off of one send has it. `own` is the relay's own spool, not a sender's upload. -/
structure Payment where
  own : Bool
  spooled : Bool
  door : Option Stamp
  rows : Bool
  owesFee : Bool
  judged : Bool
  broadcaster : Bool
  size : Nat
  deriving DecidableEq, Repr

/-- What a hand-off goes on to once its bytes are at rest. -/
inductive AfterSpool where
  | placed
  | owing
  | deferring (owed : Bool)
  deriving DecidableEq, Repr

inductive HandStage where
  | stamping
  | spooling (next : AfterSpool)
  | announcing (rest : Option Stamp)
  | owing (stamp : Stamp)
  | asking (rest : Option Stamp) (owed : Bool)
  | deferring (stamp : Stamp) (owed : Bool)
  | wording (stamp : Stamp) (owed : Bool)
  | ending (stamp : Stamp) (owed : Bool)
  | storing (fee : Fee) (kept : Bool) (naming : Nat)
  deriving DecidableEq, Repr

inductive DrainStage where
  | stamping (etag : String)
  | presenting
  | settling
  | puttingOff
  | ending
  deriving DecidableEq, Repr

inductive ReaskStage where
  | stamping (etag : String)
  | announcing
  | clearing
  deriving DecidableEq, Repr

/-- What a reclaim was called for. A pass forgets its record once the reclaim has answered. -/
inductive Caller where
  | bestEffort
  | released
  | minted
  deriving DecidableEq, Repr

/-- The three reads of one look. -/
inductive Look where
  | rows
  | fees
  | announces
  deriving DecidableEq, Repr

inductive ReclaimStage where
  | claiming
  | looking (looked : Option Stamp) (look : Look)
  | stamping
  | stampingAgain (looked : Stamp)
  | clearing
  | unclaiming (answer : Option Bool)
  deriving DecidableEq, Repr

inductive Task where
  | idle
  | hand (payment : Payment) (stage : HandStage)
  | drain (stage : DrainStage)
  | reask (stage : ReaskStage)
  | reclaiming (caller : Caller) (stage : ReclaimStage)
  | forgetting (caller : Caller)
  deriving DecidableEq, Repr

def Task.reclaims : Task → Bool
  | .reclaiming _ _ => true
  | _ => false

structure KeyRow where
  messageId : String
  acknowledged : Bool
  deriving DecidableEq, Repr

structure KeyFee where
  etag : String
  ended : Bool
  deriving DecidableEq, Repr

def KeyFee.over (f : KeyFee) : KeyFee := { f with ended := true }

/-- The key in both stores. -/
structure KeyWorld where
  object : Option Stamp
  rows : List KeyRow
  fee : Option KeyFee
  announce : Option String
  released : Bool
  minted : Bool
  tasks : Nat → Task

/-- What a party outside the stores says. -/
inductive Word where
  | yes
  | no
  | silent
  | hopeless
  deriving DecidableEq, Repr

inductive KeyInput where
  | mint
  | upload (stamp : Stamp)
  | send (task : Nat) (payment : Payment)
  | drain (task : Nat)
  | reask (task : Nat)
  | releasedPass (task : Nat)
  | mintedPass (task : Nat)
  | access (task : Nat) (outcome : Outcome) (word : Word) (stamp : Stamp)
  | store (task : Nat) (messageId : String) (outcome : Outcome)
  | sent (task : Nat) (failed : Bool)
  | acknowledge (messageId : String)
  | delete (messageId : String)
  deriving DecidableEq, Repr

namespace KeyWorld

def start : KeyWorld :=
  { object := none, rows := [], fee := none, announce := none, released := false, minted := false,
    tasks := fun _ => .idle }

def rowNames (w : KeyWorld) : Bool := w.rows.any (fun r => !r.acknowledged)

def feeOwes (w : KeyWorld) : Bool := w.fee.any (fun f => !f.ended)

def named (w : KeyWorld) : Bool := w.rowNames || w.feeOwes || w.announce.isSome

def setTask (w : KeyWorld) (t : Nat) (task : Task) : KeyWorld := { w with tasks := Function.update w.tasks t task }

end KeyWorld

/-- What a hand-off goes on to after its fee. A spool nothing will name is reclaimed. -/
def finishing (p : Payment) (fee : Fee) (rest : Option Stamp) (owed : Bool) : Task :=
  if p.rows || fee = .deferred || owed then .hand p (.storing fee rest.isSome 0)
  else if p.own && rest.isSome then .reclaiming .bestEffort .claiming
  else .hand p (.storing fee false 0)

def toDefer (p : Payment) (rest : Option Stamp) (owed : Bool) : Task :=
  match rest with
  | none => .hand p (.spooling (.deferring owed))
  | some stamp => .hand p (.deferring stamp owed)

def afterAnnounced (p : Payment) (rest : Option Stamp) (owed : Bool) : Task :=
  if !p.owesFee then finishing p .notOwed rest owed
  else if internalizeInlineBytes < p.size then toDefer p rest owed
  else .hand p (.asking rest owed)

def afterPlaced (p : Payment) (rest : Option Stamp) : Task :=
  if p.owesFee && p.judged && p.broadcaster then .hand p (.announcing rest) else afterAnnounced p rest false

/-- The bytes are where they are. A body no fee judges stays in its row, which then names no key. -/
def afterStamped (p : Payment) (rest : Option Stamp) : Task :=
  if p.own && !p.owesFee then .idle
  else if p.rows && rest.isNone then .hand p (.spooling .placed)
  else afterPlaced p rest

def afterSpooled (p : Payment) (stamp : Stamp) : AfterSpool → Task
  | .placed => afterPlaced p (some stamp)
  | .owing => .hand p (.owing stamp)
  | .deferring owed => .hand p (.deferring stamp owed)

/-- One access of a hand-off. A store that fails it ends it with a refusal. -/
def handStep (w : KeyWorld) (t : Nat) (p : Payment) (outcome : Outcome) (word : Word) (stamp : Stamp) :
    HandStage → KeyWorld
  | .stamping =>
    if outcome ≠ .ok then w.setTask t .idle
    else
      match w.object with
      | none => w.setTask t (if p.own then afterStamped p none else .idle)
      | some now => w.setTask t (if p.door.isSome && p.door ≠ some now then .idle else afterStamped p (some now))
  | .spooling next =>
    KeyWorld.setTask { w with object := if outcome.landed then some stamp else w.object } t
      (if outcome = .ok then afterSpooled p stamp next else .idle)
  | .announcing rest =>
    if word = .yes then w.setTask t (afterAnnounced p rest false)
    else
      match rest with
      | none => w.setTask t (.hand p (.spooling .owing))
      | some stamp => w.setTask t (.hand p (.owing stamp))
  | .owing stamp =>
    KeyWorld.setTask { w with announce := if outcome.landed then some (w.announce.getD stamp.etag) else w.announce } t
      (if outcome = .ok then afterAnnounced p (some stamp) true else .idle)
  | .asking rest owed =>
    match outcome, word with
    | .ok, .yes => w.setTask t (finishing p .internalized rest owed)
    | .ok, .no => w.setTask t (if p.own && rest.isSome then .reclaiming .bestEffort .claiming else .idle)
    | _, _ => w.setTask t (toDefer p rest owed)
  | .deferring stamp owed =>
    KeyWorld.setTask { w with fee := if outcome.landed then some (w.fee.getD ⟨stamp.etag, false⟩) else w.fee } t
      (if outcome = .ok then .hand p (.wording stamp owed) else .idle)
  | .wording stamp owed =>
    w.setTask t (if outcome = .ok ∧ word = .yes then .hand p (.ending stamp owed)
      else finishing p .deferred (some stamp) owed)
  | .ending stamp owed =>
    KeyWorld.setTask { w with fee := if outcome.landed then w.fee.map KeyFee.over else w.fee } t
      (if outcome = .ok then finishing p .ended (some stamp) owed else .idle)
  | .storing _ _ _ => w

/-- One access of the drain of the key's fee. -/
def drainStep (w : KeyWorld) (t : Nat) (outcome : Outcome) (word : Word) : DrainStage → KeyWorld
  | .stamping etag =>
    if outcome ≠ .ok then w.setTask t (.drain .puttingOff)
    else w.setTask t (.drain (if w.object.any (fun stamp => stamp.etag = etag) then .presenting else .ending))
  | .presenting =>
    match word with
    | .yes => w.setTask t (.drain .settling)
    | .hopeless => w.setTask t (.drain .ending)
    | _ => w.setTask t (.drain .puttingOff)
  | .settling =>
    KeyWorld.setTask { w with fee := if outcome.landed then none else w.fee } t
      (if outcome = .ok then .reclaiming .bestEffort .claiming else .idle)
  -- The ceiling of attempts ends the fee.
  | .puttingOff => w.setTask t (if word = .hopeless then .drain .ending else .idle)
  | .ending =>
    KeyWorld.setTask { w with fee := if outcome.landed then w.fee.map KeyFee.over else w.fee } t .idle

def reaskStep (w : KeyWorld) (t : Nat) (outcome : Outcome) (word : Word) : ReaskStage → KeyWorld
  | .stamping etag =>
    w.setTask t (if outcome = .ok ∧ w.object.any (fun stamp => stamp.etag = etag) then .reask .announcing else .idle)
  | .announcing => w.setTask t (if word = .yes then .reask .clearing else .idle)
  | .clearing =>
    KeyWorld.setTask { w with announce := if outcome.landed then none else w.announce } t
      (if outcome = .ok then .reclaiming .bestEffort .claiming else .idle)

/-- What a task does with a reclaim's answer. A pass whose reclaim failed keeps its record. -/
def answered (answer : Option Bool) : Caller → Task
  | .bestEffort => .idle
  | caller => if answer.isSome then .forgetting caller else .idle

/-- One access of a reclaim. -/
def keyReclaimStep (w : KeyWorld) (t : Nat) (caller : Caller) (outcome : Outcome) : ReclaimStage → KeyWorld
  | .claiming =>
    w.setTask t (if outcome = .ok then .reclaiming caller (.looking none .rows) else answered none caller)
  | .looking looked look =>
    let go (found : Bool) (next : ReclaimStage) : KeyWorld := w.setTask t (.reclaiming caller
      (if outcome ≠ .ok then .unclaiming none else if found then .unclaiming (some false) else next))
    match look with
    | .rows => go w.rowNames (.looking looked .fees)
    | .fees => go w.feeOwes (.looking looked .announces)
    | .announces => go w.announce.isSome (match looked with
        | none => .stamping
        | some looked => .stampingAgain looked)
  | .stamping => w.setTask t (.reclaiming caller
      (if outcome ≠ .ok then .unclaiming none
        else match w.object with
          | none => .unclaiming (some true)
          | some looked => .looking (some looked) .rows))
  | .stampingAgain looked => w.setTask t (.reclaiming caller
      (if outcome ≠ .ok then .unclaiming none
        else if w.object = some looked then .clearing else .unclaiming (some false)))
  | .clearing =>
    KeyWorld.setTask { w with object := if outcome.landed then none else w.object } t
      (.reclaiming caller (.unclaiming (if outcome = .ok then some true else none)))
  | .unclaiming answer => w.setTask t (answered answer caller)

def forgetStep (w : KeyWorld) (t : Nat) (outcome : Outcome) : Caller → KeyWorld
  | .bestEffort => w.setTask t .idle
  | .released => KeyWorld.setTask { w with released := w.released && !outcome.landed } t .idle
  | .minted => KeyWorld.setTask { w with minted := w.minted && !outcome.landed } t .idle

def accessStep (w : KeyWorld) (t : Nat) (outcome : Outcome) (word : Word) (stamp : Stamp) : KeyWorld :=
  match w.tasks t with
  | .idle => w
  | .hand p stage => handStep w t p outcome word stamp stage
  | .drain stage => drainStep w t outcome word stage
  | .reask stage => reaskStep w t outcome word stage
  | .reclaiming caller stage => keyReclaimStep w t caller outcome stage
  | .forgetting caller => forgetStep w t outcome caller

/-- A row of the send. It names the key when the payment is in the rows; an id stored already is ignored. -/
def storeStep (w : KeyWorld) (t : Nat) (messageId : String) (outcome : Outcome) : KeyWorld :=
  match w.tasks t with
  | .hand p (.storing fee kept naming) =>
    if !(p.rows && kept) || w.rows.any (fun r => r.messageId = messageId) then w
    else
      KeyWorld.setTask { w with rows := if outcome.landed then w.rows ++ [⟨messageId, false⟩] else w.rows } t
        (.hand p (.storing fee kept (if outcome = .ok then naming + 1 else naming)))
  | _ => w

/-- The send is over: what it left unnamed is reclaimed, but for the upload of a send that failed. -/
def sentStep (w : KeyWorld) (t : Nat) (failed : Bool) : KeyWorld :=
  match w.tasks t with
  | .hand p (.storing fee kept naming) =>
    w.setTask t (if 0 < naming || fee = .deferred then .idle
      else if !(kept || !p.own) || (failed && !p.own) then .idle
      else .reclaiming .bestEffort .claiming)
  | _ => w

/-- A task begins where none runs. -/
def begin (w : KeyWorld) (t : Nat) (task : Task) : KeyWorld := if w.tasks t = .idle then w.setTask t task else w

def keyStep (w : KeyWorld) : KeyInput → KeyWorld
  | .mint => { w with minted := true }
  | .upload stamp => { w with object := some stamp }
  | .send t p =>
    begin w t (if !p.own || p.spooled then .hand p .stamping else afterStamped p none)
  | .drain t =>
    match w.fee with
    | some fee => if fee.ended then w else begin w t (.drain (.stamping fee.etag))
    | none => w
  | .reask t =>
    match w.announce with
    | some etag => begin w t (.reask (.stamping etag))
    | none => w
  | .releasedPass t => if w.released then begin w t (.reclaiming .released .claiming) else w
  | .mintedPass t => if w.minted then begin w t (.reclaiming .minted .claiming) else w
  | .access t outcome word stamp => accessStep w t outcome word stamp
  | .store t messageId outcome => storeStep w t messageId outcome
  | .sent t failed => sentStep w t failed
  -- The triggers release the key of a row that is retired or deleted.
  | .acknowledge messageId =>
    { w with
      rows := w.rows.map (fun r => if r.messageId = messageId then { r with acknowledged := true } else r)
      released := w.released || w.rows.any (fun r => r.messageId = messageId && !r.acknowledged) }
  | .delete messageId =>
    { w with
      rows := w.rows.filter (fun r => r.messageId ≠ messageId)
      released := w.released || w.rows.any (fun r => r.messageId = messageId) }

def leakMachine : Machine KeyWorld KeyInput Empty := ⟨fun w input => (keyStep w input, [])⟩

end MessageRelay.Handoff
