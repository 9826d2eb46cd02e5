import MessageRelay.Payments.Recorded

/-! Every reader of a recipient's fee beside the others: the row it is stored in, the status of `get` and `quote`, the
blocked recipients and totals of `quote`, and the send path with the payment it settles. A payment is asked for, and
its outputs are dealt, by the sign of the fee. How much an output pays is the recipient's to see. -/

namespace MessageRelay.Payments
open MessageRelay.Library MessageRelay.Lane MessageRelay.Session MessageRelay.Send MessageRelay.Permissions
open MessageRelay.Handoff (Stores)

/-- The fees a payment is settled for. -/
def feeMap (contexts : Contexts) : List (String × String × Int) :=
  contexts.allowed.map (fun ctx => (ctx.recipient, ctx.messageId, ctx.fee))

/-- The same fees, but for one recipient's. -/
def charging (recipient : String) (fee : Int) (fees : List (String × String × Int)) : List (String × String × Int) :=
  fees.map (fun entry => if entry.1 = recipient then (entry.1, entry.2.1, fee) else entry)

/-- The send path puts the recipient in the class: it is blocked, or it is allowed with that fee on the map. Where a
payment is required a send that brings none is refused, and one that does stands or falls with what settles it. The
recipient is then dealt outputs of a payment that is taken, and another positive fee would be settled no differently. -/
structure SentAs {σ : Type} (store : SendStore σ) (k : FeeClass) (n : Int) (sender recipient messageId : String)
    (contexts : Contexts) : Prop where
  blocked : recipient ∈ contexts.blocked ↔ k = .blocked
  allowed : (∃ ctx ∈ contexts.allowed, ctx.recipient = recipient ∧ ctx.messageId = messageId ∧ ctx.fee = n) ↔
    k ≠ .blocked
  owed : k = .paymentRequired → ∀ (validated : ValidatedSendMessage) (s : σ), validated.payment = none →
    settlePayment store validated sender contexts s = (.error missingPayment, s)
  settled : k = .paymentRequired → ∀ (validated : ValidatedSendMessage) (payment : Value) (r2Key : Option String) (s : σ),
    validated.payment = some payment → decideR2Fetch payment sender = .ok r2Key →
      settlePayment store validated sender contexts s =
        ((store.settle payment r2Key (feeMap contexts) contexts.deliveryFee sender s).1.map
            (fun settled => (settled.outputs, r2Key, some settled.handed)),
          (store.settle payment r2Key (feeMap contexts) contexts.deliveryFee sender s).2)
  dealt : ∀ parse outputs deliveryFee routes, routed parse outputs (feeMap contexts) deliveryFee = .ok routes →
    ((∃ outs, outs ≠ [] ∧ (recipient, .array outs) ∈ routes) ↔ k = .paymentRequired)
  unmeasured : k = .paymentRequired → ∀ other, 0 < other →
    ∀ (d : Deployment) (parse : String → Option Value) (Cursor Slice Hash : Type) [LinearOrder Hash]
      (reader : Door.Reader Bytes Cursor Slice Hash) (whole : Slice) (payment : Value) (r2Key : Option String)
      (deliveryFee : Int) (s : Stores) (w : RouteWeather),
      processPayment d parse reader whole payment r2Key (charging recipient other (feeMap contexts)) deliveryFee sender s w =
        processPayment d parse reader whole payment r2Key (feeMap contexts) deliveryFee sender s w

/-- Every reader puts a fee that was set in the class, and gives it as the integer of the request. -/
structure Agreed (set : PermissionSet) (n : Int) (k : FeeClass) : Prop where
  stored : ∀ rows, ∃ r ∈ setPermission rows set.sender set.messageBox set.fee,
    r.sender = set.sender ∧ r.messageBox = set.messageBox ∧ r.recipientFee = n
  shown : ∀ r : PermissionRow, r.recipientFee = set.fee →
    (formatPermission r).recipientFee = n ∧ (formatPermission r).status = k.status ∧ (formatListed r).recipientFee = n
  quotedAlone : ∀ sender messageBox recipient deliveryFee tables fee delivery,
    (getRecipientFee (tables recipient) sender messageBox).1 = set.fee →
    (handleQuote sender (some messageBox) [recipient] deliveryFee tables).1 = .ok (.single delivery fee) → fee = n
  quoted : ∀ sender messageBox recipients recipient deliveryFee tables quotes delivery payable,
    recipient ∈ recipients → (getRecipientFee (tables recipient) sender messageBox).1 = set.fee →
    (handleQuote sender (some messageBox) recipients deliveryFee tables).1 = .ok (.multi quotes delivery payable) →
    QuotedAs k n sender messageBox deliveryFee recipients tables recipient quotes
  sent : ∀ (σ : Type) (store : SendStore σ) sender messageBox recipients recipient messageId s contexts s',
    (recipient, messageId) ∈ recipients →
    (∀ t ctx t', store.readSendContext recipient sender messageBox t = (.ok ctx, t') → ctx.recipientFee = set.fee) →
    readContexts store sender messageBox recipients ⟨[], [], 0⟩ s = (.ok contexts, s') →
    SentAs store k n sender recipient messageId contexts

/-! What a payment is settled for. -/

section Sending
variable {σ : Type} {store : SendStore σ} {sender messageBox recipient : String} {fee : Int}

end Sending

end MessageRelay.Payments
