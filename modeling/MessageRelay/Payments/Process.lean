import MessageRelay.Handoff.HandOff
import MessageRelay.Payments.Judge
import MessageRelay.Payments.Routing

/-! The payment of a send: its delivery output judged, its outputs dealt to the recipients, and only then handed off. -/

namespace MessageRelay.Payments
open MessageRelay.Library MessageRelay.Lane MessageRelay.Session MessageRelay.Send MessageRelay.Upload
open MessageRelay.Handoff (Stores Paid handOff)
open MessageRelay.Door (Terms PaymentVerdict DoorVerdict)

/-- What a payment is answered beside the door: the bucket and the database that are bound, whether a refused spool is
forgotten, and the hand-off's own weather. -/
structure RouteWeather where
  door : DoorWeather
  bucket : Bool
  database : Option String
  forgets : Bool
  mintedAt : Nat
  now : Nat
  uuid : String
  handOff : Handoff.Weather

def missingDeliveryOutput : Answer :=
  errorAnswer "ERR_MISSING_DELIVERY_OUTPUT" "Delivery fee required but no outputs were provided." 400

def databaseUnavailable (e : String) : Answer := errorAnswer "ERR_D1_UNAVAILABLE" ("D1 binding: " ++ e) 503

/-- A payment the route takes: a `tx` unless its object is named, and its outputs. -/
def checkPayment (payment : Value) (r2Key : Option String) : Except Answer (List Value) :=
  if r2Key.isNone ∧ (payment.get "tx").isNone then .error missingPayment
  else
    match payment.get "outputs" with
    | some (.array outputs) => .ok outputs
    | _ => .error missingPayment

section
variable (d : Deployment) (parse : String → Option Value) {Cursor Slice Hash : Type} [LinearOrder Hash]
  (reader : Door.Reader Bytes Cursor Slice Hash) (whole : Slice)

/-- The output that is judged with its verdict, and where an inline payment was spooled. -/
structure DeliveryJudged where
  judged : Option (Value × Judged)
  spooled : Option String

def DeliveryJudged.of (serverOutput : Value) (spooled : Option String) (judged : Judged) : DeliveryJudged :=
  ⟨some (serverOutput, judged), spooled⟩

/-- The refused payment's spool goes, unless its reading is to go on. -/
def forgetSpool (s : Stores) (w : RouteWeather) (key : Option String) (refused : Answer) : Stores :=
  match key, isPending refused with
  | some key, false => s.reclaim key w.forgets
  | _, _ => s

/-- The delivery output, where a delivery fee is owed. -/
def judgeDelivery (payment : Value) (outputs : List Value) (r2Key : Option String) (recipients : Nat)
    (deliveryFee : Int) (senderKey : String) (s : Stores) (w : RouteWeather) :
    Except Answer DeliveryJudged × Stores × List (String × Nat) :=
  if 0 < deliveryFee then
    match outputs with
    | [] => (.error missingDeliveryOutput, s, [])
    | serverOutput :: _ =>
      match deliveryFeeDue deliveryFee recipients with
      | .error answer => (.error answer, s, [])
      | .ok due =>
        match r2Key, payment.get "tx" with
        | some key, _ =>
          ((judgeDeliveryAtRest d w.door key serverOutput due senderKey).map (.of serverOutput none), s, [])
        | none, none => (.error missingPayment, s, [])
        | none, some tx =>
          if w.bucket then
            match w.database with
            | some e => (.error (databaseUnavailable e), s, [])
            | none =>
              match judgeDeliveryInlineAtRest d reader whole w.door s tx serverOutput due senderKey w.mintedAt with
              | ((.ok judged, key), s, minted) => (.ok (.of serverOutput key judged), s, minted)
              | ((.error refused, key), s, minted) => (.error refused, forgetSpool s w key refused, minted)
          else ((judgeDeliveryOutput d reader whole tx serverOutput due senderKey).map (.of serverOutput none), s, [])
  else (.ok ⟨none, none⟩, s, [])

/-- A payment that no delivery fee judged and that is in the request is held to its row. -/
def checkKept (payment : Value) (r2Key : Option String) (judged : Option (Value × Judged)) : Except Answer Unit :=
  if judged.isNone ∧ r2Key.isNone ∧ (payment.get "tx").isSome then checkUnjudged d reader whole payment else .ok ()

def feeRecipients (feeMap : List (String × String × Int)) : List String :=
  (feeMap.filter (fun entry => 0 < entry.2.2)).map Prod.fst

/-- The outputs behind the delivery output, dealt to the recipients who charge. -/
def routed (outputs : List Value) (feeMap : List (String × String × Int)) (deliveryFee : Int) :
    Except Answer (List (String × Value)) :=
  let recipients := feeRecipients feeMap
  if recipients.isEmpty then .ok []
  else
    (routeOutputsToRecipients parse id (if 0 < deliveryFee then outputs.drop 1 else outputs) recipients).map
      (fun routes => routes.rows.map (fun row => (row.1, .array row.2)))

def paidOf (payment : Value) (r2Key : Option String) (feeMap : List (String × String × Int)) (senderKey relay : String)
    (w : RouteWeather) (delivery : DeliveryJudged) : Paid where
  payment := payment
  carrier := ((payment.get "tx").bind Door.Carrier.of).map handed
  r2Key := r2Key
  spooled := delivery.spooled
  spoolKey := buildUploadKey senderKey w.uuid
  serverOutput := delivery.judged.map Prod.fst
  stamp := delivery.judged.bind (fun judged => judged.2.stamp)
  txid := delivery.judged.map (fun judged => judged.2.txid)
  rows := !(feeRecipients feeMap).isEmpty
  reader := relay
  now := w.now

/-- The answer, the stores behind it, and the keys recorded to be reclaimed. -/
def processPayment (payment : Value) (r2Key : Option String) (feeMap : List (String × String × Int)) (deliveryFee : Int)
    (senderKey : String) (s : Stores) (w : RouteWeather) : Except Answer Settled × Stores × List (String × Nat) :=
  match checkPayment payment r2Key, d.relay with
  | .error answer, _ => (.error answer, s, [])
  | .ok _, .error e => (.error (errorAnswer "ERR_INTERNAL" e 500), s, [])
  | .ok outputs, .ok relay =>
    match judgeDelivery d reader whole payment outputs r2Key feeMap.length deliveryFee senderKey s w with
    | (.error answer, s, minted) => (.error answer, s, minted)
    | (.ok delivery, s, minted) =>
      match checkKept d reader whole payment r2Key delivery.judged, routed parse outputs feeMap deliveryFee with
      | .error answer, _ => (.error answer, s, minted)
      | .ok (), .error answer => (.error answer, s, minted)
      | .ok (), .ok routes =>
        match w.database with
        | some e => (.error (databaseUnavailable e), s, minted)
        | none =>
          let (handed, s) := handOff s (paidOf payment r2Key feeMap senderKey relay w delivery) w.handOff
          (handed.map (fun handed => ⟨routes, handed⟩), s, minted)

end

/-! What the judging comes to. -/

theorem deliveryAnswer_ok {words : Words} {word : PaymentVerdict} {satoshis : Nat}
    (answered : deliveryAnswer words word = .ok satoshis) : word = .verified satoshis := by
  unfold deliveryAnswer at answered
  split at answered
  · cases answered
    rfl
  · cases answered
  · cases answered
  · cases answered
  · cases answered
  · split at answered
    · cases answered
    · split at answered <;> cases answered

theorem doorJudged_ok {words : Words} {verdict : DoorVerdict String} {judged : Judged}
    (answered : doorJudged words verdict = .ok judged) :
    verdict.word = .verified judged.satoshis ∧ verdict.subject = some judged.txid ∧ judged.stamp = none := by
  unfold doorJudged doorAnswer at answered
  cases word : deliveryAnswer words verdict.word with
  | error answer => simp [word, Except.mapError, bind, Except.bind] at answered
  | ok satoshis =>
    simp only [word, Except.mapError, bind, Except.bind] at answered
    split at answered
    · rename_i txid subject
      cases answered
      exact ⟨deliveryAnswer_ok word, subject, rfl⟩
    · cases answered

/-- A verdict at rest is the door's, under the terms of the remittance. -/
theorem judgeDeliveryAtRest_ok {d : Deployment} {w : DoorWeather} {key : String} {serverOutput : Value} {due : Nat}
    {senderKey : String} {judged : Judged}
    (answered : judgeDeliveryAtRest d w key serverOutput due senderKey = .ok judged) :
    ∃ terms verdict, deliveryTerms d serverOutput due senderKey = .ok terms ∧
      w.atRest key terms = .ok (.done verdict, judged.stamp) ∧ verdict.word = .verified judged.satoshis ∧
      verdict.subject = some judged.txid := by
  unfold judgeDeliveryAtRest at answered
  cases asked : deliveryTerms d serverOutput due senderKey with
  | error answer => simp [asked, bind, Except.bind] at answered
  | ok terms =>
    simp only [asked, bind, Except.bind] at answered
    cases headers : d.headers with
    | none =>
      simp only [headers, pure, Except.pure] at answered
      cases judging : doorJudged d.words (.of .noHeaderService) with
      | error answer => simp [judging] at answered
      | ok other => cases (doorJudged_ok judging).1
    | some lookup =>
      simp only [headers] at answered
      cases said : w.atRest key terms with
      | error e => simp [said, Except.mapError] at answered
      | ok answer =>
        obtain ⟨answer, stamp⟩ := answer
        simp only [said, Except.mapError] at answered
        cases answer with
        | pending pending => cases answered
        | notFound => cases answered
        | done verdict =>
          simp only at answered
          cases judging : doorJudged d.words verdict with
          | error answer => simp [judging] at answered
          | ok other =>
            simp only [judging, pure, Except.pure, Except.ok.injEq] at answered
            obtain ⟨word, subject, -⟩ := doorJudged_ok judging
            subst answered
            exact ⟨terms, verdict, rfl, said, word, subject⟩

section
variable {d : Deployment} {Cursor Slice Hash : Type} [LinearOrder Hash] {reader : Door.Reader Bytes Cursor Slice Hash}
  {whole : Slice}

theorem judgeDeliveryOutput_ok {tx serverOutput : Value} {due : Nat} {senderKey : String} {judged : Judged}
    (answered : judgeDeliveryOutput d reader whole tx serverOutput due senderKey = .ok judged) :
    ∃ terms carrier verdict, deliveryTerms d serverOutput due senderKey = .ok terms ∧
      Door.Carrier.of tx = some carrier ∧
      Door.verifyInline reader whole terms (wholeBytes carrier) d.headers = .ok verdict ∧
      verdict.word = .verified judged.satoshis ∧ verdict.subject.map reader.displayHex = some judged.txid ∧
      judged.stamp = none := by
  unfold judgeDeliveryOutput at answered
  cases remittance : deliveryRemittance serverOutput senderKey with
  | error answer => simp [remittance, bind, Except.bind] at answered
  | ok named =>
    obtain ⟨outputIndex, prefix', suffix⟩ := named
    simp only [remittance, bind, Except.bind, carried] at answered
    cases shape : Door.Carrier.of tx with
    | none => simp [shape] at answered
    | some carrier =>
      simp only [shape] at answered
      cases script : deliveryScript d prefix' suffix senderKey with
      | error answer => simp [script] at answered
      | ok expectedScript =>
        simp only [script] at answered
        cases said : Door.verifyInline reader whole ⟨outputIndex, expectedScript, due⟩ (wholeBytes carrier) d.headers with
        | error e => simp [said, Except.mapError] at answered
        | ok verdict =>
          simp only [said, Except.mapError] at answered
          obtain ⟨word, subject, stamp⟩ := doorJudged_ok answered
          refine ⟨⟨outputIndex, expectedScript, due⟩, carrier, verdict, ?_, rfl, said, word, subject, stamp⟩
          simp [deliveryTerms, remittance, script, bind, Except.bind, pure, Except.pure]

theorem spoolInline_key {w : DoorWeather} {s s' : Stores} {key key' : String} {size now : Nat}
    {minted : List (String × Nat)} (spooled : spoolInline w s key size now = (.ok key', s', minted)) : key' = key := by
  unfold spoolInline at spooled
  split at spooled
  · cases spooled
  · split at spooled
    · cases spooled
      rfl
    · split at spooled
      · cases spooled
      · split at spooled
        · cases spooled
          rfl
        · cases spooled

theorem spoolInline_ledger (w : DoorWeather) (s : Stores) (key : String) (size now : Nat) :
    (spoolInline w s key size now).2.1.ledger = s.ledger := by
  unfold spoolInline
  split
  · rfl
  · split
    · rfl
    · split
      · rfl
      · split
        · rfl
        · cases w.spoolLanded <;> rfl

theorem spoolPaying_ledger (w : DoorWeather) (s : Stores) (tx serverOutput : Value) (due : Nat) (senderKey : String)
    (now : Nat) : (spoolPaying d reader whole w s tx serverOutput due senderKey now).2.1.ledger = s.ledger := by
  unfold spoolPaying
  split
  · rfl
  · exact spoolInline_ledger ..

theorem payingCarrier_of {tx serverOutput : Value} {due : Nat} {senderKey : String} {carrier : Door.Carrier}
    (pays : payingCarrier d reader whole tx serverOutput due senderKey = .ok carrier) :
    Door.Carrier.of tx = some carrier := by
  unfold payingCarrier at pays
  cases remittance : deliveryRemittance serverOutput senderKey with
  | error answer => simp [remittance, bind, Except.bind] at pays
  | ok named =>
    simp only [remittance, bind, Except.bind, carried] at pays
    cases shape : Door.Carrier.of tx with
    | none => simp [shape] at pays
    | some other =>
      simp only [shape] at pays
      split at pays
      · cases pays
      · split at pays
        · cases pays
        · split at pays
          · cases pays
          · split at pays
            · cases pays
            · cases pays
              rfl
          · cases pays
            rfl

/-- The key is the one of the sender's bytes. -/
theorem spoolPaying_key {w : DoorWeather} {s s' : Stores} {tx serverOutput : Value} {due : Nat} {senderKey : String}
    {now : Nat} {key : String} {minted : List (String × Nat)}
    (spooled : spoolPaying d reader whole w s tx serverOutput due senderKey now = (.ok key, s', minted)) :
    ∃ carrier, Door.Carrier.of tx = some carrier ∧ key = inlineSpoolKey d senderKey carrier := by
  unfold spoolPaying at spooled
  split at spooled
  · cases spooled
  · rename_i carrier pays
    exact ⟨carrier, payingCarrier_of pays, spoolInline_key spooled⟩

theorem forgetSpool_ledger (s : Stores) (w : RouteWeather) (key : Option String) (refused : Answer) :
    (forgetSpool s w key refused).ledger = s.ledger := by
  unfold forgetSpool
  split
  · unfold Stores.reclaim
    split <;> rfl
  · rfl

theorem judgeInline_ledger (w : DoorWeather) (s : Stores) (tx serverOutput : Value) (due : Nat) (senderKey : String)
    (now : Nat) :
    (judgeDeliveryInlineAtRest d reader whole w s tx serverOutput due senderKey now).2.1.ledger = s.ledger := by
  have spooled := @spoolPaying_ledger d _ _ _ _ reader whole w s tx serverOutput due senderKey now
  unfold judgeDeliveryInlineAtRest
  split
  · rename_i came
    rwa [came] at spooled
  · rename_i came
    rwa [came] at spooled

/-- Judging a payment records nothing. -/
theorem judgeDelivery_ledger (payment : Value) (outputs : List Value) (r2Key : Option String) (recipients : Nat)
    (deliveryFee : Int) (senderKey : String) (s : Stores) (w : RouteWeather) :
    (judgeDelivery d reader whole payment outputs r2Key recipients deliveryFee senderKey s w).2.1.ledger = s.ledger := by
  unfold judgeDelivery
  split
  · split
    · rfl
    · rename_i serverOutput _
      split
      · rfl
      · rename_i due _
        split
        · rfl
        · rfl
        · rename_i tx _
          split
          · split
            · rfl
            · have kept := @judgeInline_ledger d _ _ _ _ reader whole w.door s tx serverOutput due senderKey w.mintedAt
              split
              · rename_i came
                rwa [came] at kept
              · rename_i came
                rw [came] at kept
                exact (forgetSpool_ledger ..).trans kept
          · rfl
  · rfl

variable (d reader whole) in
/-- The door verified the delivery output: of the object the payment names, of the sender's bytes at rest, or of those
in the request. -/
inductive Vouched (payment : Value) (r2Key : Option String) (w : DoorWeather) (serverOutput : Value) (due : Nat)
    (senderKey : String) (judged : Judged) : Option String → Prop
  | uploaded (key : String) (terms : Terms) (verdict : DoorVerdict String) (upload : r2Key = some key)
      (asked : deliveryTerms d serverOutput due senderKey = .ok terms)
      (said : w.atRest key terms = .ok (.done verdict, judged.stamp))
      (word : verdict.word = .verified judged.satoshis) (subject : verdict.subject = some judged.txid) :
      Vouched payment r2Key w serverOutput due senderKey judged none
  | spooled (carrier : Door.Carrier) (terms : Terms) (verdict : DoorVerdict String) (inline : r2Key = none)
      (sent : (payment.get "tx").bind Door.Carrier.of = some carrier)
      (asked : deliveryTerms d serverOutput due senderKey = .ok terms)
      (said : w.atRest (inlineSpoolKey d senderKey carrier) terms = .ok (.done verdict, judged.stamp))
      (word : verdict.word = .verified judged.satoshis) (subject : verdict.subject = some judged.txid) :
      Vouched payment r2Key w serverOutput due senderKey judged (some (inlineSpoolKey d senderKey carrier))
  | sent (carrier : Door.Carrier) (terms : Terms) (verdict : DoorVerdict Hash) (inline : r2Key = none)
      (sent : (payment.get "tx").bind Door.Carrier.of = some carrier)
      (asked : deliveryTerms d serverOutput due senderKey = .ok terms)
      (said : Door.verifyInline reader whole terms (wholeBytes carrier) d.headers = .ok verdict)
      (word : verdict.word = .verified judged.satoshis)
      (subject : verdict.subject.map reader.displayHex = some judged.txid) :
      Vouched payment r2Key w serverOutput due senderKey judged none

theorem map_ok {ε α β : Type} {f : α → β} {x : Except ε α} {b : β} (mapped : x.map f = .ok b) :
    ∃ a, x = .ok a ∧ f a = b := by
  cases x with
  | error e => cases mapped
  | ok a =>
    cases mapped
    exact ⟨a, rfl, rfl⟩

/-- A payment that is judged without a refusal owes no delivery fee, or the door verified what it owes. -/
theorem judgeDelivery_ok {payment : Value} {outputs : List Value} {r2Key : Option String} {recipients : Nat}
    {deliveryFee : Int} {senderKey : String} {s s' : Stores} {w : RouteWeather} {delivery : DeliveryJudged}
    {minted : List (String × Nat)}
    (answered : judgeDelivery d reader whole payment outputs r2Key recipients deliveryFee senderKey s w =
      (.ok delivery, s', minted)) :
    delivery.judged = none ∨ ∃ serverOutput rest due judged, outputs = serverOutput :: rest ∧ 0 < deliveryFee ∧
      deliveryFeeDue deliveryFee recipients = .ok due ∧ delivery.judged = some (serverOutput, judged) ∧
      Vouched d reader whole payment r2Key w.door serverOutput due senderKey judged delivery.spooled := by
  unfold judgeDelivery at answered
  split at answered
  · rename_i charged
    right
    split at answered
    · cases answered
    · rename_i serverOutput rest
      split at answered
      · cases answered
      · rename_i due owed
        split at answered
        · rename_i _ key
          obtain ⟨judging, -⟩ := Prod.mk.inj answered
          obtain ⟨judged, verified, rfl⟩ := map_ok judging
          obtain ⟨terms, verdict, asked, said, word, subject⟩ := judgeDeliveryAtRest_ok verified
          exact ⟨serverOutput, rest, due, judged, rfl, charged, owed, rfl,
            .uploaded key terms verdict rfl asked said word subject⟩
        · cases answered
        · rename_i tx there
          split at answered
          · split at answered
            · cases answered
            · split at answered
              · rename_i judged key t minted' came
                cases answered
                unfold judgeDeliveryInlineAtRest at came
                split at came
                · cases came
                · rename_i key' t' minted'' spooled
                  obtain ⟨pair, -⟩ := Prod.mk.inj came
                  obtain ⟨judging, rfl⟩ := Prod.mk.inj pair
                  obtain ⟨carrier, shape, rfl⟩ := spoolPaying_key spooled
                  obtain ⟨terms, verdict, asked, said, word, subject⟩ := judgeDeliveryAtRest_ok judging
                  exact ⟨serverOutput, rest, due, judged, rfl, charged, owed, rfl,
                    .spooled carrier terms verdict rfl (by rw [there]; exact shape) asked said word subject⟩
              · cases answered
          · obtain ⟨judging, -⟩ := Prod.mk.inj answered
            obtain ⟨judged, verified, rfl⟩ := map_ok judging
            obtain ⟨terms, carrier, verdict, asked, shape, said, word, subject, -⟩ := judgeDeliveryOutput_ok verified
            exact ⟨serverOutput, rest, due, judged, rfl, charged, owed, rfl,
              .sent carrier terms verdict rfl (by rw [there]; exact shape) asked said word subject⟩
  · cases answered
    exact .inl rfl

end

end MessageRelay.Payments
