import MessageRelay.Session.State

/-! The write path both transports share: the box switch, the recipients' contexts, the budget, the payment,
and the loop that stores one row a recipient. It runs over any store, and stops at the first recipient whose
row is not stored. -/

namespace MessageRelay.Session.Value

private def hexDigit (n : Nat) : Char := if n < 10 then Char.ofNat (48 + n) else Char.ofNat (87 + n)

/-- One character of a JSON string as serde_json writes it. -/
def escaped (c : Char) : String :=
  match c.toNat with
  | 0x08 => "\\b"
  | 0x09 => "\\t"
  | 0x0a => "\\n"
  | 0x0c => "\\f"
  | 0x0d => "\\r"
  | 0x22 => "\\\""
  | 0x5c => "\\\\"
  | n => if n < 0x20 then "\\u00" ++ String.ofList [hexDigit (n / 16), hexDigit (n % 16)] else c.toString

def quoted (s : String) : String := "\"" ++ String.join (s.toList.map escaped) ++ "\""

mutual

/-- The value's compact text. -/
def text : Value → String
  | .null => "null"
  | .bool b => if b then "true" else "false"
  | .number digits => digits
  | .string s => quoted s
  | .array items => "[" ++ textItems items ++ "]"
  | .object fields => "\x7b" ++ textFields fields ++ "\x7d"

def textItems : List Value → String
  | [] => ""
  | item :: rest => text item ++ (if rest.isEmpty then "" else ",") ++ textItems rest

def textFields : List (String × Value) → String
  | [] => ""
  | field :: rest => textField field ++ (if rest.isEmpty then "" else ",") ++ textFields rest

def textField : String × Value → String
  | (name, value) => quoted name ++ ":" ++ text value

end

/-- A member set in an object, whose members are kept in the order of their names. -/
def insertField (name : String) (value : Value) : List (String × Value) → List (String × Value)
  | [] => [(name, value)]
  | field :: rest =>
    if field.1 = name then (name, value) :: rest
    else if name < field.1 then (name, value) :: field :: rest
    else field :: insertField name value rest

end MessageRelay.Session.Value

namespace MessageRelay.Send
open MessageRelay.Session

/-- A body and its HTTP status. -/
structure Answer where
  body : Value
  status : Nat

/-- A store's failure. One of the transient class is the client's to send again. -/
structure StoreError where
  transient : Bool
  detail : String
  deriving DecidableEq, Repr

structure ValidatedSendMessage where
  recipients : List (String × String)
  messageBox : String
  body : Value
  payment : Option Value

structure SendContext where
  recipientFee : Int
  serverFee : Int
  boxId : Option Nat
  deriving DecidableEq, Repr

inductive Fee where
  | notOwed
  | internalized
  | deferred
  | ended
  deriving DecidableEq, Repr

/-- The payment as a row stores it, its fee, and the object that must stay at rest. -/
structure HandedOff where
  payment : Value
  fee : Fee
  kept : Option String

structure Settled where
  outputs : List (String × Value)
  handed : HandedOff

/-- What the store did with one row. -/
inductive Insert where
  | stored
  | duplicate
  | full (body : Value)

structure RecipientResult where
  recipient : String
  messageId : String
  deriving DecidableEq, Repr

inductive SendOutcome where
  | success (results : List RecipientResult)
  | validationError (answer : Answer)
  | blockedRecipients (list : List String)
  | paymentFailed (answer : Answer)
  | duplicateMessage (recipient messageId : String)
  | internalError (detail : String)
  | transientError (detail : String)

structure HubPush where
  recipient : String
  messageBox : String
  sender : String
  messageId : String
  body : Value

structure FcmPush where
  recipient : String
  messageId : String
  deriving DecidableEq, Repr

/-- What a send leaves for after its answer. -/
structure AfterAnswer where
  pushes : List HubPush
  fcm : List FcmPush

/-- The store the write path runs over, its operations in the order the path calls them. -/
structure SendStore (σ : Type) where
  boxOff : String → Bool
  readSendContext : String → String → String → σ → Except StoreError SendContext × σ
  charge : String → Nat → σ → Except Answer Unit × σ
  settle : Value → Option String → List (String × String × Int) → Int → String → σ → Except Answer Settled × σ
  getOrCreateMessageBox : String → String → σ → Except StoreError Nat × σ
  insertMessage : String → Nat → String → String → String → Option String → σ → Except StoreError Insert × σ
  forgetUnnamed : Nat → Option HandedOff → Option String → Bool → σ → σ

def errorAnswer (code description : String) (status : Nat) : Answer :=
  ⟨.object [("code", .string code), ("description", .string description), ("status", .string "error")], status⟩

def boxOffAnswer (messageBox : String) : Answer := errorAnswer "ERR_BOX_OFF" s!"box {messageBox} is off" 403

def missingPayment : Answer :=
  errorAnswer "ERR_MISSING_PAYMENT_TX" "Payment transaction data is required for payable delivery." 400

def classifyStoreError (e : StoreError) : SendOutcome :=
  if e.transient then .transientError e.detail else .internalError e.detail

def shouldUseFcmDelivery (messageBox : String) : Bool := messageBox = "notifications"

def keyIsOwnedBy (identityKey key : String) : Bool :=
  (identityKey ++ "/").toList.isPrefixOf key.toList && (identityKey ++ "/").length < key.length

/-- The object a payment names, when the sender owns it. -/
def decideR2Fetch (payment : Value) (identityKey : String) : Except Answer (Option String) :=
  match (payment.get "beefR2Key").bind Value.asStr with
  | none => .ok none
  | some key =>
    if key = "" then .ok none
    else if keyIsOwnedBy identityKey key then .ok (some key)
    else .error (errorAnswer "ERR_BEEF_KEY_FORBIDDEN" "beefR2Key does not belong to the caller." 403)

/-- A recipient's row, with the payment and that recipient's outputs when the recipient is paid. -/
def storedBody (message : Value) (paid : Option (Value × Value)) : String :=
  match paid with
  | some (payment, outputs) =>
    let payment := match payment with
      | .object fields => .object (Value.insertField "outputs" outputs fields)
      | other => other
    (Value.object [("message", message), ("payment", payment)]).text
  | none => (Value.object [("message", message)]).text

/-- A recipient that may be sent to: its key, the message's id, its fee and its box's id. -/
structure Context where
  recipient : String
  messageId : String
  fee : Int
  boxId : Option Nat
  deriving DecidableEq, Repr

/-- What the recipients' contexts come to. -/
structure Contexts where
  blocked : List String
  allowed : List Context
  deliveryFee : Int
  deriving DecidableEq, Repr

section Path
variable {σ : Type} (store : SendStore σ)

/-- The recipients' contexts in turn, the last one's delivery fee standing for all. -/
def readContexts (sender messageBox : String) :
    List (String × String) → Contexts → σ → Except StoreError Contexts × σ
  | [], contexts, s => (.ok contexts, s)
  | (recipient, messageId) :: rest, contexts, s =>
    match store.readSendContext recipient sender messageBox s with
    | (.error e, s) => (.error e, s)
    | (.ok ctx, s) =>
      let contexts := { contexts with deliveryFee := ctx.serverFee }
      if ctx.recipientFee < 0 then
        readContexts sender messageBox rest { contexts with blocked := contexts.blocked ++ [recipient] } s
      else
        readContexts sender messageBox rest
          { contexts with allowed := contexts.allowed ++ [⟨recipient, messageId, ctx.recipientFee, ctx.boxId⟩] } s

/-- What the rows of one send are written from. -/
structure Writing where
  sender : String
  messageBox : String
  body : Value
  outputs : List (String × Value)
  handed : Option HandedOff
  r2Key : Option String

namespace Writing

/-- The payment of a recipient's row, with its outputs. -/
def paid (w : Writing) (recipient : String) : Option (Value × Value) :=
  w.handed.bind (fun handed =>
    ((w.outputs.find? (fun entry => entry.1 = recipient)).map (fun entry => (handed.payment, entry.2))))

/-- The object a recipient's row names. -/
def beefKey (w : Writing) (recipient : String) : Option String :=
  (w.paid recipient).bind (fun paid => (paid.1.get "beefR2Key").bind Value.asStr)

def rowBody (w : Writing) (recipient : String) : String := storedBody w.body (w.paid recipient)

end Writing

/-- What the loop has done so far. -/
structure Progress where
  results : List RecipientResult
  rowsNaming : Nat
  after : AfterAnswer

/-- The box's id as the context has it, or made now. -/
def boxOf (messageBox : String) (ctx : Context) (s : σ) : Except StoreError Nat × σ :=
  match ctx.boxId with
  | some id => (.ok id, s)
  | none => store.getOrCreateMessageBox ctx.recipient messageBox s

/-- A stored row's push and notification are owed after the answer. -/
def Progress.stored (p : Progress) (w : Writing) (ctx : Context) : Progress :=
  { results := p.results ++ [⟨ctx.recipient, ctx.messageId⟩]
    rowsNaming := p.rowsNaming + (if (w.beefKey ctx.recipient).isSome then 1 else 0)
    after :=
      { pushes := p.after.pushes ++ [⟨ctx.recipient, w.messageBox, w.sender, ctx.messageId, w.body⟩]
        fcm := if shouldUseFcmDelivery w.messageBox then p.after.fcm ++ [⟨ctx.recipient, ctx.messageId⟩]
          else p.after.fcm } }

/-- The rows in turn, up to the first that is not stored. -/
def insertRows (w : Writing) : List Context → Progress → σ → SendOutcome × AfterAnswer × σ
  | [], p, s => (.success p.results, p.after, store.forgetUnnamed p.rowsNaming w.handed w.r2Key false s)
  | ctx :: rest, p, s =>
    match boxOf store w.messageBox ctx s with
    | (.error e, s) => (classifyStoreError e, p.after, store.forgetUnnamed p.rowsNaming w.handed w.r2Key true s)
    | (.ok boxId, s) =>
      match store.insertMessage ctx.messageId boxId w.sender ctx.recipient (w.rowBody ctx.recipient)
        (w.beefKey ctx.recipient) s with
      | (.ok .stored, s) => insertRows w rest (p.stored w ctx) s
      | (.ok .duplicate, s) =>
        (.duplicateMessage ctx.recipient ctx.messageId, p.after,
          store.forgetUnnamed p.rowsNaming w.handed w.r2Key true s)
      | (.ok (.full body), s) =>
        (.validationError ⟨body, 429⟩, p.after, store.forgetUnnamed p.rowsNaming w.handed w.r2Key true s)
      | (.error e, s) => (classifyStoreError e, p.after, store.forgetUnnamed p.rowsNaming w.handed w.r2Key true s)

/-- The payment, where one is required: the object it names, and what it settles to. -/
def settlePayment (validated : ValidatedSendMessage) (sender : String) (contexts : Contexts) (s : σ) :
    Except Answer (List (String × Value) × Option String × Option HandedOff) × σ :=
  let feeMap := contexts.allowed.map (fun ctx => (ctx.recipient, ctx.messageId, ctx.fee))
  if 0 < contexts.deliveryFee ∨ feeMap.any (fun entry => 0 < entry.2.2) then
    match validated.payment with
    | none => (.error missingPayment, s)
    | some payment =>
      match decideR2Fetch payment sender with
      | .error answer => (.error answer, s)
      | .ok r2Key =>
        match store.settle payment r2Key feeMap contexts.deliveryFee sender s with
        | (.ok settled, s) => (.ok (settled.outputs, r2Key, some settled.handed), s)
        | (.error answer, s) => (.error answer, s)
  else (.ok ([], none, none), s)

/-- The bytes of text no delivery fee judges. -/
def unjudged (validated : ValidatedSendMessage) (deliveryFee : Int) : Nat :=
  validated.body.text.utf8ByteSize +
    (match validated.payment with
    | some payment => if 0 < deliveryFee then 0 else payment.text.utf8ByteSize
    | none => 0)

/-- Everything before the first row is stored: what the rows are written from and whom they go to, or the outcome
the send ends with. -/
def prepare (validated : ValidatedSendMessage) (sender : String) (s : σ) :
    Except SendOutcome (Writing × List Context) × σ :=
  if store.boxOff validated.messageBox then (.error (.validationError (boxOffAnswer validated.messageBox)), s)
  else
    match readContexts store sender validated.messageBox validated.recipients ⟨[], [], 0⟩ s with
    | (.error e, s) => (.error (classifyStoreError e), s)
    | (.ok contexts, s) =>
      if contexts.blocked ≠ [] then (.error (.blockedRecipients contexts.blocked), s)
      else
        match store.charge sender (unjudged validated contexts.deliveryFee) s with
        | (.error answer, s) => (.error (.validationError answer), s)
        | (.ok (), s) =>
          match settlePayment store validated sender contexts s with
          | (.error answer, s) => (.error (.paymentFailed answer), s)
          | (.ok (outputs, r2Key, handed), s) =>
            (.ok (⟨sender, validated.messageBox, validated.body, outputs, handed, r2Key⟩, contexts.allowed), s)

def storeRows (validated : ValidatedSendMessage) (sender : String) (s : σ) : SendOutcome × AfterAnswer × σ :=
  match prepare store validated sender s with
  | (.error outcome, s) => (outcome, ⟨[], []⟩, s)
  | (.ok (writing, contexts), s) => insertRows store writing contexts ⟨[], 0, ⟨[], []⟩⟩ s

end Path

end MessageRelay.Send
