import MessageRelay.Door.Inline
import MessageRelay.Handoff.Serve
import MessageRelay.Payments.QuoteTotals
import MessageRelay.Upload.Record

/-! The delivery output of a payment, judged before anything is recorded: the sender's remittance, the server's script
for it, and the door's word, turned into the route's answer. The bytes are in the request, or at rest. -/

namespace MessageRelay.Payments
open MessageRelay.Library MessageRelay.Lane MessageRelay.Session MessageRelay.Send MessageRelay.Upload
open MessageRelay.Handoff (Stores TxShape encodedLen listInlineObjectBytes invalidPayment beefKeyNotFound storeUnavailable)
open MessageRelay.Door (Terms PaymentVerdict UnverifiableReason DoorVerdict Phase verifyInline structureAndOutput)

/-- Where a script ran out of its work. -/
structure WorkLimit where
  txid : String
  input : Nat
  budget : Nat
  workSpent : Nat
  attempted : Nat

/-- What the verifier says of its words. -/
structure Words where
  describe : PaymentVerdict → String
  serverSide : UnverifiableReason → Bool
  workLimit : UnverifiableReason → Option WorkLimit

inductive DoorError where
  | source (e : String)
  | internal (e : String)

def doorError : DoorError → Answer
  | .source e => errorAnswer "ERR_PAYMENT_UNAVAILABLE" ("The payment's BEEF could not be read: " ++ e) 503
  | .internal e => errorAnswer "ERR_INTERNAL" e 500

def invalid (description : String) : Answer := errorAnswer "ERR_INVALID_PAYMENT" description 400

def natural (n : Nat) : Value := .number (toString n)

def workAnswer (offset : Nat) (limit : WorkLimit) : Answer :=
  ⟨.object [("attempted", natural limit.attempted), ("budget", natural limit.budget),
    ("code", .string "ERR_PAYMENT_WORK"),
    ("description", .string
      "The local evaluator declined this input at its work budget; payment validity is undetermined."),
    ("input", natural limit.input), ("offset", natural offset), ("resource", .string "Work"),
    ("status", .string "error"), ("txid", .string limit.txid), ("workSpent", natural limit.workSpent)], 422⟩

def deliveryAnswer (words : Words) (verdict : PaymentVerdict) : Except Answer Nat :=
  let invalidOutput := invalid ("The server delivery output is invalid: " ++ words.describe verdict)
  match verdict with
  | .verified satoshis => .ok satoshis
  | .underpaid _ =>
    .error (errorAnswer "ERR_INSUFFICIENT_PAYMENT" "The server delivery output does not pay the required amount." 400)
  | .wrongScript | .rootMismatch .. => .error invalidOutput
  | .noHeaderService => .error (errorAnswer "ERR_SERVER_MISCONFIGURED" (words.describe verdict) 500)
  | .unverifiable reason =>
    match reason, words.workLimit reason with
    | .spendRefused offset _, some limit => .error (workAnswer offset limit)
    | _, _ =>
      if words.serverSide reason then .error (errorAnswer "ERR_PAYMENT_UNAVAILABLE" (words.describe verdict) 503)
      else .error invalidOutput

/-- The offset and the kind of the refused bytes, in the text and as fields. -/
def named (offset : Nat) (kind : String) (answer : Answer) : Answer :=
  match answer.body with
  | .object fields =>
    let text := ((answer.body.get "description").bind Value.asStr).getD ""
    ⟨.object (Value.insertField "kind" (.string kind) (Value.insertField "offset" (natural offset)
      (Value.insertField "description" (.string (text ++ s!" ({kind} at offset {offset})")) fields))), answer.status⟩
  | _ => answer

def doorAnswer (words : Words) (verdict : DoorVerdict String) : Except Answer Nat :=
  (deliveryAnswer words verdict.word).mapError (fun answer =>
    match verdict.named with
    | some (offset, kind) => named offset kind answer
    | none => answer)

/-- What the delivery output pays, the subject, and the stamp of the object that was read. -/
structure Judged where
  satoshis : Nat
  txid : String
  stamp : Option Handoff.Stamp

def doorJudged (words : Words) (verdict : DoorVerdict String) : Except Answer Judged := do
  let satoshis ← doorAnswer words verdict
  match verdict.subject with
  | some txid => return ⟨satoshis, txid, none⟩
  | none => throw (errorAnswer "ERR_INTERNAL" "The door verified a payment and named no subject." 500)

/-- The output the remittance names, and the sender's two derivation strings. -/
def deliveryRemittance (serverOutput : Value) (senderKey : String) : Except Answer (Nat × String × String) :=
  if (serverOutput.get "protocol").bind Value.asStr ≠ some "wallet payment" then
    .error (invalid "The server delivery output must be a wallet payment.")
  else
    match ((serverOutput.get "outputIndex").bind asU64).filter (· < 2 ^ 32) with
    | none => .error (invalid "The server delivery output index is invalid.")
    | some outputIndex =>
      let remittance (key : String) := ((serverOutput.get "paymentRemittance").bind (fun r => r.get key)).bind Value.asStr
      match remittance "derivationPrefix", remittance "derivationSuffix", remittance "senderIdentityKey" with
      | some prefix', some suffix, some sender =>
        if sender ≠ senderKey then
          .error (invalid "The delivery payment remittance is invalid for the authenticated sender.")
        else .ok (outputIndex, prefix', suffix)
      | _, _, _ => .error (invalid "The delivery payment remittance is incomplete.")

/-- How far the reading of an object at rest has come. -/
structure Pending where
  phase : Phase
  elements : Nat
  input : Option Nat
  offset : Nat
  size : Nat
  rootsAsked : Nat
  roots : Nat

inductive AtRest where
  | done (verdict : DoorVerdict String)
  | pending (pending : Pending)
  | notFound

def Pending.phaseName (pending : Pending) : String :=
  match pending.phase with
  | .structural => "structure"
  | .scripts => "scripts"
  | .roots => "roots"

def Pending.description (p : Pending) : String :=
  if 0 < p.roots then
    s!"The payment's BEEF is read ({p.elements} elements, {p.size} bytes); {p.rootsAsked} of its {p.roots} merkle " ++
      "roots are checked. Send the same request again to continue."
  else
    match p.input with
    | some input =>
      s!"The payment's BEEF is being verified ({p.phaseName}): {p.elements} elements read, and the scripts of the " ++
        s!"next, at byte {p.offset} of {p.size}, run to its input {input}. Send the same request again to continue " ++
        "from that input."
    | none =>
      s!"The payment's BEEF is being verified ({p.phaseName}): {p.elements} elements and {p.offset} of {p.size} bytes " ++
        "read. Send the same request again to continue."

def pendingAnswer (p : Pending) : Answer :=
  ⟨.object [("code", .string "ERR_PAYMENT_PENDING"), ("description", .string p.description),
    ("elements", natural p.elements), ("input", (p.input.map natural).getD .null), ("offset", natural p.offset),
    ("phase", .string p.phaseName), ("roots", natural p.roots), ("rootsChecked", natural p.rootsAsked),
    ("size", natural p.size), ("status", .string "error")], 503⟩

def isPending (answer : Answer) : Bool := (answer.body.get "code").bind Value.asStr = some "ERR_PAYMENT_PENDING"

/-- The deployment: the relay's public key, the BRC-29 script of its key for a remittance, its header service and the
verifier's texts. -/
structure Deployment where
  relay : Except String String
  lockingScript : String → String → String → Except String (List UInt8)
  headers : Option (Nat → Except String String)
  words : Words
  sha256Hex : Bytes → String

/-- What the door, the bucket and the records answer one payment. -/
structure DoorWeather where
  atRest : String → Terms → Except DoorError (AtRest × Option Handoff.Stamp)
  stampFails : Option String
  mint : Except String Unit
  spool : Except String Handoff.Stamp
  spoolLanded : Option Handoff.Stamp

section
variable (d : Deployment)

def deliveryScript (prefix' suffix senderKey : String) : Except Answer (List UInt8) :=
  (d.lockingScript prefix' suffix senderKey).mapError (fun e =>
    invalid ("The delivery payment remittance is invalid: " ++ e))

/-- The terms of the delivery output: the output the sender names, under the server's script, at the fee. -/
def deliveryTerms (serverOutput : Value) (deliveryFee : Nat) (senderKey : String) : Except Answer Terms := do
  let (outputIndex, prefix', suffix) ← deliveryRemittance serverOutput senderKey
  let expectedScript ← deliveryScript d prefix' suffix senderKey
  return ⟨outputIndex, expectedScript, deliveryFee⟩

def judgeDeliveryAtRest (w : DoorWeather) (key : String) (serverOutput : Value) (deliveryFee : Nat)
    (senderKey : String) : Except Answer Judged := do
  let terms ← deliveryTerms d serverOutput deliveryFee senderKey
  let (answer, stamp) ← match d.headers with
    | none => pure (AtRest.done (.of .noHeaderService), none)
    | some _ => (w.atRest key terms).mapError doorError
  match answer with
  | .done verdict =>
    let judged ← doorJudged d.words verdict
    return { judged with stamp }
  | .pending pending => throw (pendingAnswer pending)
  | .notFound => throw (beefKeyNotFound "R2 object not found")

variable {Cursor Slice Hash : Type} [LinearOrder Hash] (reader : Door.Reader Bytes Cursor Slice Hash) (whole : Slice)

def displayed (verdict : DoorVerdict Hash) : DoorVerdict String :=
  ⟨verdict.word, verdict.named, verdict.subject.map reader.displayHex⟩

def wholeBytes (carrier : Door.Carrier) : Bytes := carrier.bytes 0 carrier.len

def carried (tx : Value) : Except Answer Door.Carrier :=
  match Door.Carrier.of tx with
  | some carrier => .ok carrier
  | none => .error invalidPayment

/-- The payment in the request, where no bucket is bound. -/
def judgeDeliveryOutput (tx serverOutput : Value) (deliveryFee : Nat) (senderKey : String) : Except Answer Judged := do
  let (outputIndex, prefix', suffix) ← deliveryRemittance serverOutput senderKey
  let carrier ← carried tx
  let expectedScript ← deliveryScript d prefix' suffix senderKey
  let verdict ← (verifyInline reader whole ⟨outputIndex, expectedScript, deliveryFee⟩ (wholeBytes carrier)
    d.headers).mapError (fun e => doorError (.internal e))
  doorJudged d.words (displayed reader verdict)

def inlineSpoolKey (sender : String) (carrier : Door.Carrier) : String :=
  sender ++ "/inline-" ++ d.sha256Hex (wholeBytes carrier) ++ ".beef"

/-- What the spool came to: the key the bytes rest at, or the refusal, with the stores and the keys recorded. -/
abbrev Spooled := Except Answer String × Stores × List (String × Nat)

/-- The bytes at their key, unless an object of their size is there. The key is recorded before it is written. -/
def spoolInline (w : DoorWeather) (s : Stores) (key : String) (size now : Nat) : Spooled :=
  match w.stampFails with
  | some e => (.error (storeUnavailable e), s, [])
  | none =>
    if ((s.objects key).map (·.size)) = some size then (.ok key, s, [])
    else
      match w.mint with
      | .error e => (.error (storeUnavailable e), s, [])
      | .ok () =>
        let minted := [(key, now + mintedMarginSecs)]
        match w.spool with
        | .ok stamp => (.ok key, s.put key stamp, minted)
        | .error e =>
          (.error (storeUnavailable e), (w.spoolLanded.map (s.put key)).getD s, minted)

/-- The bytes of an inline payment whose structure holds and whose output pays. -/
def payingCarrier (tx serverOutput : Value) (deliveryFee : Nat) (senderKey : String) : Except Answer Door.Carrier := do
  let (outputIndex, prefix', suffix) ← deliveryRemittance serverOutput senderKey
  let carrier ← carried tx
  if d.headers.isNone then
    let _ ← deliveryAnswer d.words .noHeaderService
  let expectedScript ← deliveryScript d prefix' suffix senderKey
  match structureAndOutput reader whole ⟨outputIndex, expectedScript, deliveryFee⟩ (wholeBytes carrier) with
  | .error e => throw (doorError (.internal e))
  | .ok (.error refused) =>
    let _ ← doorAnswer d.words (displayed reader refused)
    return carrier
  | .ok (.ok _) => return carrier

def spoolPaying (w : DoorWeather) (s : Stores) (tx serverOutput : Value) (deliveryFee : Nat) (senderKey : String)
    (now : Nat) : Spooled :=
  match payingCarrier d reader whole tx serverOutput deliveryFee senderKey with
  | .error refused => (.error refused, s, [])
  | .ok carrier => spoolInline w s (inlineSpoolKey d senderKey carrier) carrier.len now

/-- The structure and the output in the request, the scripts and the roots at rest. -/
def judgeDeliveryInlineAtRest (w : DoorWeather) (s : Stores) (tx serverOutput : Value) (deliveryFee : Nat)
    (senderKey : String) (now : Nat) : (Except Answer Judged × Option String) × Stores × List (String × Nat) :=
  match spoolPaying d reader whole w s tx serverOutput deliveryFee senderKey now with
  | (.error refused, s, minted) => ((.error refused, none), s, minted)
  | (.ok key, s, minted) => ((judgeDeliveryAtRest d w key serverOutput deliveryFee senderKey, some key), s, minted)

def shapeOf : Door.Carrier → TxShape
  | .array _ => .array
  | .hex _ => .hex
  | .base64 _ => .base64

/-- A carrier as the hand-off takes it. -/
def handed (carrier : Door.Carrier) : Handoff.Carrier where
  shape := shapeOf carrier
  size := carrier.len
  hex := match carrier with
    | .hex text => (Door.textOfBytes text).getD ""
    | _ => hexEncode (wholeBytes carrier)

def bodyTooLarge (text : Nat) : Answer :=
  errorAnswer "ERR_BODY_TOO_LARGE" (s!"A payment this box does not judge (it owes no delivery fee) is kept in its row, " ++
    s!"and a row holds {listInlineObjectBytes} bytes; this one is {text} bytes as sent. Upload it (/beef/upload-url) " ++
    "or send it to a box that judges it.") 413

/-- A payment no delivery fee judges: of a known shape, no longer than a row holds, and a BEEF. -/
def checkUnjudged (payment : Value) : Except Answer Unit := do
  let carrier ← match payment.get "tx" with
    | some tx => carried tx
    | none => throw invalidPayment
  let text := encodedLen carrier.len (TxShape.sent payment (handed carrier))
  if listInlineObjectBytes < text then throw (bodyTooLarge text)
  match reader.read none .structural (wholeBytes carrier) whole with
  | .valid _ => return ()
  | .refused reason =>
    let _ ← doorAnswer d.words (displayed reader (.refusal reason))
    return ()
  | .paused _ => throw (doorError (.internal "a reading with no slice paused"))

end

end MessageRelay.Payments
