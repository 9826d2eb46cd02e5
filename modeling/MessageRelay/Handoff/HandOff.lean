import MessageRelay.Handoff.Ledger

/-! The hand-off of a verified payment: where its bytes rest, the announcement, and the fee, which is recorded in the
request or deferred. Everything the stores, the broadcaster and wallet-infra answer is in the weather. -/

namespace MessageRelay.Handoff
open MessageRelay.Library MessageRelay.Session MessageRelay.Send

def internalizeInlineBytes : Nat := 1024 * 1024

inductive TxShape where
  | array
  | hex
  | base64
  deriving DecidableEq, Repr

def TxShape.name : TxShape → String
  | .array => "array"
  | .hex => "hex"
  | .base64 => "base64"

/-- The bytes of `payment.tx`, as `Carrier::of` reads them. -/
structure Carrier where
  shape : TxShape
  size : Nat
  hex : String

def TxShape.sent (payment : Value) (carrier : Carrier) : TxShape :=
  if (payment.get "txShape").bind Value.asStr = some "array" then .array else carrier.shape

/-- A broadcaster's word on a payment's subject. -/
structure Hint where
  accepted : Bool
  word : String
  deriving DecidableEq, Repr

/-- A verified payment as the route hands it on, with the carrier its `tx` is, when it is one. -/
structure Paid where
  payment : Value
  carrier : Option Carrier
  r2Key : Option String
  spooled : Option String
  spoolKey : String
  serverOutput : Option Value
  stamp : Option Stamp
  txid : Option String
  rows : Bool
  reader : String
  now : Nat

/-- The bytes in hand: none when the sender uploaded them. -/
def Paid.inHand (paid : Paid) : Option Carrier := if paid.r2Key.isSome then none else paid.carrier

/-- What a hand-off is answered by the stores, the broadcaster and wallet-infra. -/
structure Weather where
  stampFails : Option String
  spool : Except String Stamp
  reader : Option String
  announcer : Option (Except String Hint)
  owed : Outcome
  readBack : Except String String
  wallet : Except String Bool
  deferred : Outcome
  wordRead : Bool
  ended : Outcome
  reclaims : Bool

def textOr (v : Option Value) (default : String) : String := (v.bind Value.asStr).getD default

/-- What `internalizeAction` is asked beside the bytes. -/
def feeArgs (serverOutput payment : Value) : Value :=
  .object [("description", .string (textOr (payment.get "description") "MessageBox delivery payment")),
    ("labels", (payment.get "labels").getD (.array [])), ("outputs", .array [serverOutput])]

/-- The fields of a stored payment that are the relay's to write. -/
def rowFields : List String :=
  ["announced", "beefReader", "key", "words", "tx", "beefR2Key", "beefSize", "beefEtag", "txShape", "verdict", "txid"]

def sentFields : Value → List (String × Value)
  | .object fields => fields.filter (fun f => !rowFields.contains f.1)
  | _ => []

/-- The payment as a recipient's row stores it: in place of its `tx`, where the bytes rest. -/
def paymentAtRest (payment : Value) (key : String) (stamp : Stamp) (shape : TxShape) (txid : Option String) :
    List (String × Value) :=
  let row := [("beefR2Key", Value.string key), ("beefSize", .number (toString stamp.size)),
    ("beefEtag", .string stamp.etag), ("txShape", .string shape.name),
    ("verdict", .string (if txid.isSome then "verified" else "notJudged"))].foldl
      (fun fields (name, value) => Value.insertField name value fields) (sentFields payment)
  match txid with
  | some txid => Value.insertField "txid" (.string txid) row
  | none => row

def hexDigitValue (c : Char) : Option Nat :=
  if '0' ≤ c ∧ c ≤ '9' then some (c.toNat - 48)
  else if 'a' ≤ c ∧ c ≤ 'f' then some (c.toNat - 87)
  else if 'A' ≤ c ∧ c ≤ 'F' then some (c.toNat - 55)
  else none

def hexDecode : List Char → Option (List Nat)
  | [] => some []
  | [_] => none
  | high :: low :: rest => do
    let high ← hexDigitValue high
    let low ← hexDigitValue low
    let rest ← hexDecode rest
    return (16 * high + low) :: rest

/-- A payment no delivery fee judged, as its row keeps it. -/
def paymentInRow (payment : Value) : Value :=
  let fields := match payment.get "tx" with
    | none => sentFields payment
    | some tx =>
      let sent := match (payment.get "txShape").bind Value.asStr, tx.asStr with
        | some "array", some text =>
          match hexDecode text.toList with
          | some bytes => .array (bytes.map (fun b => .number (toString b)))
          | none => tx
        | _, _ => tx
      Value.insertField "tx" sent (sentFields payment)
  .object (Value.insertField "verdict" (.string "notJudged") fields)

def beefKeyNotFound (e : String) : Answer :=
  errorAnswer "ERR_BEEF_KEY_NOT_FOUND" ("Could not fetch BEEF from R2: " ++ e) 400

def storeUnavailable (e : String) : Answer :=
  errorAnswer "ERR_PAYMENT_UNAVAILABLE" ("The payment's BEEF could not be put at rest: " ++ e) 503

def invalidPayment : Answer := errorAnswer "ERR_INVALID_PAYMENT" "Payment must contain a valid Atomic BEEF." 400

def paymentChanged (key : String) (door now : Stamp) : Answer :=
  errorAnswer "ERR_PAYMENT_CHANGED" ("The payment's BEEF at " ++ key ++ " changed after it was verified (etag " ++
    door.etag ++ " then, " ++ now.etag ++ " now); send the same request again.") 503

def announceUnrecorded : Answer :=
  errorAnswer "ERR_PAYMENT_UNAVAILABLE"
    "The announcement could not be recorded as owed; send the same request again: the ledger could not be written" 503

def feeUnrecorded : Answer :=
  errorAnswer "ERR_PAYMENT_UNAVAILABLE"
    "The delivery fee could not be recorded as owed; send the same request again: the ledger could not be written" 503

def insufficientPayment : Answer :=
  errorAnswer "ERR_INSUFFICIENT_PAYMENT" "Payment was not accepted by the server." 400

def namesNoBytes : Answer := errorAnswer "ERR_INTERNAL" "A deferred fee names no bytes at rest." 500

/-- Where a payment's bytes rest: a key and the stamp of what is there. -/
abbrev Rest := Option (String × Stamp)

/-- Where the bytes rest as the hand-off begins: the sender's upload, or the relay's own spool if it is there. -/
def atRest (s : Stores) (paid : Paid) (w : Weather) : Except Answer Rest :=
  match paid.r2Key, paid.spooled with
  | some key, _ =>
    match w.stampFails, s.objects key with
    | some e, _ => .error (beefKeyNotFound e)
    | none, none => .error (beefKeyNotFound "R2 object not found")
    | none, some stamp => .ok (some (key, stamp))
  | none, some key =>
    match w.stampFails with
    | some e => .error (storeUnavailable e)
    | none => .ok ((s.objects key).map (fun stamp => (key, stamp)))
  | none, none => .ok none

/-- The bytes the door read, and no others. -/
def heldToDoor (paid : Paid) (rest : Rest) : Except Answer Unit :=
  match paid.stamp, rest with
  | some door, some (key, now) => if door ≠ now then .error (paymentChanged key door now) else .ok ()
  | _, _ => .ok ()

/-- Bytes in hand are put at rest, unless they rest already. -/
def spool (s : Stores) (paid : Paid) (w : Weather) (rest : Rest) : Except Answer Rest × Stores :=
  match rest, paid.inHand with
  | none, some _ =>
    match w.spool with
    | .ok stamp => (.ok (some (paid.spoolKey, stamp)), s.put paid.spoolKey stamp)
    | .error e => (.error (storeUnavailable e), s)
  | _, _ => (.ok rest, s)

/-- The payment's size: of the bytes in hand, or of those at rest. -/
def sizeOf (paid : Paid) (rest : Rest) : Nat :=
  match paid.inHand, rest with
  | some carrier, _ => carrier.size
  | none, some (_, stamp) => stamp.size
  | none, none => 0

/-- What the announcement comes to: the broadcaster's word, where the bytes rest now, and whether it is owed. -/
structure Announced where
  hint : Option Hint
  rest : Rest
  owed : Bool

def saidOf : Option (Except String Hint) → Hint
  | none => ⟨false, "no broadcaster is configured"⟩
  | some (.ok said) => said
  | some (.error e) => ⟨false, "no answer: " ++ e⟩

def announceOwed (s : Stores) (paid : Paid) (w : Weather) (rest : Rest) (txid : String) (said : Hint) :
    Except Answer Announced × Stores :=
  match spool s paid w rest with
  | (.error answer, s) => (.error answer, s)
  | (.ok none, s) => (.ok ⟨some said, none, false⟩, s)
  | (.ok (some (key, stamp)), s) =>
    match w.owed.write s (s.ledger.oweAnnounce ⟨key, stamp.etag, txid, 0, paid.now, keptWord said.word⟩) with
    | (.error _, s) => (.error announceUnrecorded, s)
    | (.ok (), s) => (.ok ⟨some said, some (key, stamp), true⟩, s)

/-- The subject announced before delivery. A refusal, or no answer, is owed. -/
def announce (s : Stores) (paid : Paid) (w : Weather) (rest : Rest) : Except Answer Announced × Stores :=
  match paid.serverOutput, paid.txid with
  | some _, some txid =>
    let word := if rest.isSome || paid.inHand.isSome then w.announcer else none
    let said := saidOf word
    if word.isSome && !said.accepted then announceOwed s paid w rest txid said
    else (.ok ⟨some said, rest, false⟩, s)
  | _, _ => (.ok ⟨none, rest, false⟩, s)

/-- How wallet-infra took a fee in the request. -/
inductive Asked where
  | recorded
  | refused
  | owed (why : String)
  deriving DecidableEq, Repr

def askWallet (paid : Paid) (w : Weather) (rest : Rest) : Asked :=
  if internalizeInlineBytes < sizeOf paid rest then .owed "the BEEF is more than one request hands wallet-infra"
  else
    let tx : Except String String := match rest, paid.r2Key, paid.inHand with
      | some _, some _, _ => w.readBack
      | _, _, some carrier => .ok carrier.hex
      | _, _, _ => .error "no bytes to hand wallet-infra"
    match tx, w.wallet with
    | .error e, _ => .owed ("the bytes could not be read back: " ++ e)
    | .ok _, .ok true => .recorded
    | .ok _, .ok false => .refused
    | .ok _, .error e => .owed e

/-- The relay's word on wallet-infra, as this hand-off reads it. -/
def wordNow (s : Stores) (paid : Paid) (w : Weather) : Option String :=
  if w.wordRead then s.ledger.freshWord paid.now else none

/-- The fee as the ledger takes it. -/
def feeOf (paid : Paid) (output : Value) (key : String) (stamp : Stamp) : DeferredFee :=
  ⟨key, stamp.etag, paid.txid.getD "", (feeArgs output paid.payment).text, paid.rows, 0, paid.now⟩

/-- The fee is recorded as owed. It ends at once in a wallet-infra that cannot read the relay's bucket. -/
def deferFee (s : Stores) (paid : Paid) (w : Weather) (output : Value) (key : String) (stamp : Stamp) :
    Except Answer Fee × Stores :=
  match w.deferred.write s (s.ledger.defer (feeOf paid output key stamp)) with
  | (.error _, s) => (.error feeUnrecorded, s)
  | (.ok (), s) =>
    match wordNow s paid w with
    | some word =>
      match w.ended.write s (s.ledger.endFee key
        ("not deferred: wallet-infra cannot read the relay's bucket (" ++ word ++ ")")) with
      | (.error _, s) => (.error feeUnrecorded, s)
      | (.ok (), s) => (.ok .ended, s)
    | none => (.ok .deferred, s)

/-- The relay's own spool goes, unless another send names the same bytes. -/
def dropSpool (s : Stores) (paid : Paid) (w : Weather) (rest : Rest) : Stores :=
  match paid.r2Key, rest with
  | none, some (key, _) => s.reclaim key w.reclaims
  | _, _ => s

/-- The fee, with where the bytes rest after it. -/
def settleFee (s : Stores) (paid : Paid) (w : Weather) (rest : Rest) : Except Answer (Fee × Rest) × Stores :=
  match paid.serverOutput with
  | none => (.ok (.notOwed, rest), s)
  | some output =>
    match askWallet paid w rest with
    | .recorded => (.ok (.internalized, rest), s)
    | .refused => (.error insufficientPayment, dropSpool s paid w rest)
    | .owed _ =>
      match spool s paid w rest with
      | (.error answer, s) => (.error answer, s)
      | (.ok none, s) => (.error namesNoBytes, s)
      | (.ok (some (key, stamp)), s) =>
        match deferFee s paid w output key stamp with
        | (.error answer, s) => (.error answer, s)
        | (.ok fee, s) => (.ok (fee, some (key, stamp)), s)

/-- The payment as the rows carry it. -/
def rowPayment (paid : Paid) (w : Weather) (hint : Option Hint) (key : String) (stamp : Stamp) : Value :=
  let shape := match paid.inHand with
    | some carrier => TxShape.sent paid.payment carrier
    | none => .base64
  let row := paymentAtRest paid.payment key stamp shape paid.txid
  let row := match hint with
    | some hint => Value.insertField "announced"
        (.object [("accepted", .bool hint.accepted), ("word", .string hint.word)]) row
    | none => row
  .object (if paid.r2Key.isSome && w.reader ≠ some paid.reader then
    Value.insertField "beefReader" (.string paid.reader) row else row)

/-- What is kept at rest, and what is not goes. -/
def finish (s : Stores) (paid : Paid) (w : Weather) (announced : Announced) (fee : Fee) (rest : Rest) :
    HandedOff × Stores :=
  if paid.rows || fee = .deferred || announced.owed then
    (⟨match rest with
      | some (key, stamp) => if paid.rows then rowPayment paid w announced.hint key stamp else .null
      | none => .null, fee, rest.map (·.1)⟩, s)
  else (⟨.null, fee, none⟩, dropSpool s paid w rest)

/-- Everything of the hand-off before the fee: where the bytes rest, and the announcement. -/
def beforeFee (s : Stores) (paid : Paid) (w : Weather) (rest : Rest) : Except Answer Announced × Stores :=
  match heldToDoor paid rest with
  | .error answer => (.error answer, s)
  | .ok () =>
    match if paid.rows then spool s paid w rest else (.ok rest, s) with
    | (.error answer, s) => (.error answer, s)
    | (.ok rest, s) => announce s paid w rest

def handOff (s : Stores) (paid : Paid) (w : Weather) : Except Answer HandedOff × Stores :=
  if paid.r2Key.isNone && paid.inHand.isNone then (.error invalidPayment, s)
  else
    match atRest s paid w with
    | .error answer => (.error answer, s)
    | .ok rest =>
      -- A body no delivery fee judges stays in its row, once it is held to what the door read.
      match heldToDoor paid rest, paid.serverOutput, paid.r2Key with
      | .ok (), none, none => (.ok ⟨if paid.rows then paymentInRow paid.payment else .null, .notOwed, none⟩, s)
      | _, _, _ =>
        match beforeFee s paid w rest with
        | (.error answer, s) => (.error answer, s)
        | (.ok announced, s) =>
          match settleFee s paid w announced.rest with
          | (.error answer, s) => (.error answer, s)
          | (.ok (fee, rest), s) =>
            let (handed, s) := finish s paid w announced fee rest
            (.ok handed, s)

end MessageRelay.Handoff
