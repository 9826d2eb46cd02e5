import MessageRelay.Handoff.Reclaim
import MessageRelay.Send.StoreRows

/-! The ledger of the fees and announcements still owed, and the drain that presents the fees. A fee is recorded by
its object's key alone, and a row that is there already is left as it is. -/

namespace MessageRelay.Handoff
open MessageRelay.Library MessageRelay.Session MessageRelay.Send

def feeAttemptsCeiling : Nat := 30

def walletWordSecs : Nat := 86400

def backoffSecs (attempts : Nat) : Nat := min (60 * 2 ^ min (attempts - 1) 20) 86400

def containsText (word part : String) : Bool := decide (part.toList <:+: word.toList)

/-- wallet-infra's refusal says that it cannot read the relay's bucket. -/
def cannotReadBucket (word : String) : Bool :=
  containsText word "no bucket is bound here for bytes at rest" ||
    (containsText word "beefAtRest: bucket " && containsText word "is not bound here")

/-- What a row keeps of a reason. -/
def keptWord (word : String) : String := String.ofList (word.toList.take 500)

structure DeferredFee where
  key : String
  etag : String
  txid : String
  args : String
  named : Bool
  attempts : Nat
  nextAt : Nat
  deriving DecidableEq, Repr

/-- A row of `fee_internalize`. One that ended keeps its reason. -/
structure FeeRow where
  fee : DeferredFee
  ended : Option String
  lastError : Option String
  deriving DecidableEq, Repr

/-- A row of `announce_owed`. -/
structure OwedAnnounce where
  key : String
  etag : String
  txid : String
  attempts : Nat
  nextAt : Nat
  lastWord : String
  deriving DecidableEq, Repr

structure Ledger where
  fees : List FeeRow
  announces : List OwedAnnounce
  walletWord : Option (String × Nat)
  deriving DecidableEq, Repr

namespace Ledger

/-- `INSERT OR IGNORE INTO fee_internalize`. -/
def defer (l : Ledger) (fee : DeferredFee) : Ledger :=
  if l.fees.any (fun r => r.fee.key = fee.key) then l else { l with fees := l.fees ++ [⟨fee, none, none⟩] }

/-- The fees that are due, the longest waiting first. -/
def due (l : Ledger) (now limit : Nat) : List DeferredFee :=
  (((l.fees.filter (fun r => r.fee.nextAt ≤ now && r.ended.isNone)).map (·.fee)).insertionSort
    (fun a b => a.nextAt ≤ b.nextAt)).take limit

def settle (l : Ledger) (key : String) : Ledger := { l with fees := l.fees.filter (fun r => r.fee.key ≠ key) }

/-- A fee that stays for a later try. -/
def putOff (l : Ledger) (key : String) (attempts nextAt : Nat) (why : String) : Ledger :=
  { l with fees := l.fees.map (fun r => if r.fee.key = key then
      { r with fee := { r.fee with attempts, nextAt }, lastError := some (keptWord why) } else r) }

/-- A fee ends, with its reason. -/
def endFee (l : Ledger) (key why : String) : Ledger :=
  { l with fees := l.fees.map (fun r => if r.fee.key = key then
      { r with ended := some (keptWord why), lastError := some (keptWord why) } else r) }

/-- A deferred fee that has not ended, or an announcement owed, names the key. -/
def owes (l : Ledger) (key : String) : Bool :=
  l.fees.any (fun r => r.fee.key = key && r.ended.isNone) || l.announces.any (fun a => a.key = key)

/-- `INSERT OR IGNORE INTO announce_owed`. -/
def oweAnnounce (l : Ledger) (owed : OwedAnnounce) : Ledger :=
  if l.announces.any (fun a => a.key = owed.key) then l else { l with announces := l.announces ++ [owed] }

def setWalletWord (l : Ledger) (word : Option String) (now : Nat) : Ledger :=
  { l with walletWord := word.map (fun word => (keptWord word, now)) }

/-- The relay's word that wallet-infra cannot read its bucket stands for a day. -/
def freshWord (l : Ledger) (now : Nat) : Option String :=
  l.walletWord.bind (fun (word, since) => if now < since + walletWordSecs then some word else none)

end Ledger

/-- The objects at rest, the keys live rows name, and the ledger. -/
structure Stores where
  objects : String → Option Stamp
  rows : List String
  ledger : Ledger

namespace Stores

def named (s : Stores) (key : String) : Bool := s.rows.contains key || s.ledger.owes key

def put (s : Stores) (key : String) (stamp : Stamp) : Stores :=
  { s with objects := Function.update s.objects key (some stamp) }

/-- A reclaim between which and anything else no other request runs. -/
def reclaim (s : Stores) (key : String) (answers : Bool) : Stores :=
  if answers && !s.named key then { s with objects := Function.update s.objects key none } else s

end Stores

/-- What became of one fee at the drain. -/
inductive Tried where
  | settled
  | putOff (why : String)
  | ends (why : String)
  deriving DecidableEq, Repr

/-- What the stores and wallet-infra answer while one fee is drained. -/
structure FeeAnswers where
  stampFails : Option String
  bucketName : Option String
  argsParse : Bool
  wallet : Except String Bool
  recorded : Outcome
  worded : Outcome
  wordRead : Bool
  reclaims : Bool

/-- One deferred fee: the object held to the upload the door verified, and the reference to it presented. -/
def tryFee (s : Stores) (fee : DeferredFee) (answers : FeeAnswers) : Tried :=
  match answers.stampFails with
  | some e => .putOff e
  | none =>
    match s.objects fee.key with
    | none => .ends "the object is not in the store"
    | some stamp =>
      if stamp.etag ≠ fee.etag then .ends "another upload is at the key"
      else if answers.bucketName.isNone then .ends "the deployment names no bucket for the reference"
      else if !answers.argsParse then .ends "the row's arguments do not parse"
      else
        match answers.wallet with
        | .ok true => .settled
        | .ok false => .putOff "wallet-infra did not accept the payment"
        | .error e =>
          if cannotReadBucket e then .ends ("wallet-infra cannot read the relay's bucket: " ++ e) else .putOff e

/-- A write of the ledger, which may fail and may have landed all the same. -/
def Outcome.write (outcome : Outcome) (s : Stores) (ledger : Ledger) : Except String Unit × Stores :=
  (if outcome = .ok then .ok () else .error "the ledger could not be written",
    if outcome.landed then { s with ledger } else s)

/-- What one fee's outcome does. -/
def drainFee (s : Stores) (fee : DeferredFee) (answers : FeeAnswers) (now : Nat) : Except String Unit × Stores :=
  match tryFee s fee answers with
  | .settled =>
    match answers.recorded.write s (s.ledger.settle fee.key) with
    | (.error e, s) => (.error e, s)
    | (.ok (), s) =>
      let s := s.reclaim fee.key answers.reclaims
      if answers.wordRead && s.ledger.walletWord.isSome then
        answers.worded.write s (s.ledger.setWalletWord none now)
      else (.ok (), s)
  | .putOff why =>
    let attempts := fee.attempts + 1
    if feeAttemptsCeiling ≤ attempts then
      answers.recorded.write s
        (s.ledger.endFee fee.key ("not recorded after " ++ toString attempts ++ " attempts: " ++ why))
    else answers.recorded.write s (s.ledger.putOff fee.key attempts (now + backoffSecs attempts) why)
  | .ends why =>
    if cannotReadBucket why then
      match answers.worded.write s (s.ledger.setWalletWord (some why) now) with
      | (.error e, s) => (.error e, s)
      | (.ok (), s) => answers.recorded.write s (s.ledger.endFee fee.key why)
    else answers.recorded.write s (s.ledger.endFee fee.key why)

/-- The due fees in turn, up to a ledger that fails. -/
def drainDue (answers : String → FeeAnswers) (now : Nat) : List DeferredFee → Stores → Stores
  | [], s => s
  | fee :: rest, s =>
    match drainFee s fee (answers fee.key) now with
    | (.error _, s) => s
    | (.ok (), s) => drainDue answers now rest s

def drainFees (s : Stores) (answers : String → FeeAnswers) (now limit : Nat) : Stores :=
  drainDue answers now (s.ledger.due now limit) s

end MessageRelay.Handoff
