import MessageRelay.Handoff.Served

/-! What comes back of a payment: read from the request's text, put at rest, and served again, its `tx` is of the shape
it was sent in and decodes to the bytes sent. Its other members are the sender's, but for their numbers, which are read
and printed twice on the way. -/

namespace MessageRelay.Handoff
open MessageRelay.Lane MessageRelay.Library MessageRelay.Library.Json MessageRelay.Session MessageRelay.Payments
open MessageRelay.Send

/-- The shape a `tx` is in. -/
def shapeOf : Value → TxShape
  | .array _ => .array
  | .string _ => .hex
  | _ => .base64

theorem shapeOf_txValue (bytes : Bytes) (shape : TxShape) : shapeOf (txValue bytes shape) = shape := by
  cases shape <;> rfl

/-- The most bytes an object of the bucket has. -/
def objectBytes : Nat := 5 * 2 ^ 40

def Bucket.Bounded (bucket : Bucket) : Prop :=
  ∀ (key : String) (object : R2Object) (stream : List Bytes), bucket key = .ok (some object) →
    object.body = .ok (stream.map .ok) → stream.flatten.length ≤ objectBytes

theorem GivesChunks.bounded {bucket : Bucket} {key : String} {stamp : Stamp} {stream : List Bytes}
    (gives : GivesChunks bucket key stamp stream) (bounded : bucket.Bounded) : stream.flatten.length ≤ objectBytes := by
  rw [GivesChunks] at gives
  split at gives
  · rw [gives]
    exact Nat.zero_le _
  · obtain ⟨object, found, -, body, -⟩ := gives
    exact bounded key object stream found body

theorem GivesChunks.least {bucket : Bucket} {key : String} {stamp : Stamp} {stream : List Bytes}
    (gives : GivesChunks bucket key stamp stream) : stamp.size ≤ stream.flatten.length := by
  rw [GivesChunks] at gives
  split at gives
  · next empty =>
    rw [empty]
    exact Nat.zero_le _
  · obtain ⟨-, -, -, -, enough⟩ := gives
    exact enough

theorem get_sentFields (payment : Value) (name : String) :
    (Value.object (sentFields payment)).get name = if name ∈ rowFields then none else payment.get name := by
  cases payment with
  | object fields =>
    simp only [sentFields, Value.get]
    induction fields with
    | nil => simp
    | cons f rest ih =>
      by_cases relay : f.1 ∈ rowFields
      · rw [List.filter_cons_of_neg (by simp [relay]), ih]
        by_cases hidden : name ∈ rowFields
        · rw [if_pos hidden, if_pos hidden]
        · have apart : f.1 ≠ name := fun same => hidden (same ▸ relay)
          rw [if_neg hidden, if_neg hidden, List.find?_cons_of_neg (by simpa using apart)]
      · rw [List.filter_cons_of_pos (by simp [relay])]
        by_cases own : f.1 = name
        · subst own
          rw [if_neg relay, List.find?_cons_of_pos (by simp), List.find?_cons_of_pos (by simp)]
        · rw [List.find?_cons_of_neg (by simpa using own), List.find?_cons_of_neg (by simpa using own), ih]
  | null | bool | number | string | array =>
    simp [sentFields, Value.get]

section
variable {range : Range} (payment : Value) (key : String) (stamp : Stamp) (shape : TxShape) (txid : Option String)

/-- The relay's members of a payment at rest, and no other of them. -/
theorem get_paymentAtRest (name : String) : (Value.object (paymentAtRest payment key stamp shape txid)).get name =
    if "txid" = name then txid.map .string
    else if "verdict" = name then some (.string (if txid.isSome then "verified" else "notJudged"))
    else if "txShape" = name then some (.string shape.name)
    else if "beefEtag" = name then some (.string stamp.etag)
    else if "beefSize" = name then some (.number (toString stamp.size))
    else if "beefR2Key" = name then some (.string key)
    else if name ∈ rowFields then none else payment.get name := by
  cases txid with
  | some txid =>
    simp only [paymentAtRest, List.foldl_cons, List.foldl_nil, Value.get_insertField, get_sentFields]
    rfl
  | none =>
    simp only [paymentAtRest, List.foldl_cons, List.foldl_nil, Value.get_insertField, get_sentFields]
    by_cases own : "txid" = name
    · subst own
      rw [if_neg (by decide), if_neg (by decide), if_neg (by decide), if_neg (by decide), if_neg (by decide),
        if_pos (by decide), if_pos rfl]
      rfl
    · rw [if_neg own]

theorem named_name (shape : TxShape) : TxShape.named shape.name = some shape := by
  cases shape <;> decide

/-- The row names the bytes. -/
theorem restOf_atRest (small : stamp.size < 2 ^ 64) (outputs : Value) :
    restOf (withOutputs outputs (.object (paymentAtRest payment key stamp shape txid))) = some (key, stamp, shape) := by
  have held (name : String) (other : "outputs" ≠ name) :
      (withOutputs outputs (.object (paymentAtRest payment key stamp shape txid))).get name =
        (Value.object (paymentAtRest payment key stamp shape txid)).get name := by
    rw [withOutputs, Value.get_insertField, if_neg other]
  have sized := asU64_toString small
  simp only [restOf, held "beefR2Key" (by decide), held "beefSize" (by decide), held "beefEtag" (by decide),
    held "txShape" (by decide), get_paymentAtRest]
  simp only [String.reduceEq, if_true, if_false, Option.bind_some, Value.asStr, sized, named_name, Option.bind_eq_bind]
  rfl

theorem paymentAtRest_readable {n : Nat} (readable : Value.Readable range (n + 1) payment)
    (small : stamp.size < 2 ^ 64) :
    Value.Readable range (n + 1) (.object (paymentAtRest payment key stamp shape txid)) := by
  have sent : Value.Readable range (n + 1) (.object (sentFields payment)) := by
    cases payment with
    | object fields =>
      cases readable with
      | object ordered inside =>
        exact .object (ordered.filter _) (fun f member => inside f (List.mem_of_mem_filter member))
    | null | bool | number | string | array => exact .object .nil (List.forall_mem_nil _)
  have keyed := insertField_formed "beefR2Key" sent (.string (s := key))
  have sized := insertField_formed "beefSize" keyed (Value.Writable.natural range small).readable
  have tagged := insertField_formed "beefEtag" sized (.string (s := stamp.etag))
  have shaped := insertField_formed "txShape" tagged (.string (s := shape.name))
  have relay := insertField_formed "verdict" shaped (.string (s := if txid.isSome then "verified" else "notJudged"))
  cases txid with
  | none => exact relay
  | some txid => exact insertField_formed "txid" relay .string

end

theorem get_modifyField_ne {name other : String} (apart : name ≠ other) (f : Value → Value)
    (fields : List (String × Value)) :
    (Value.object (modifyField other f fields)).get name = (Value.object fields).get name := by
  rw [modifyField_eq, Value.get, Value.get]
  induction fields with
  | nil => rfl
  | cons m rest ih =>
    by_cases same : m.1 = name
    · have kept : m.1 ≠ other := fun own => apart (same.symm.trans own)
      rw [List.map_cons, List.find?_cons_of_pos (by simpa using same), List.find?_cons_of_pos (by simpa using same),
        Option.map_some, Option.map_some, if_neg kept]
    · rw [List.map_cons, List.find?_cons_of_neg (by simpa using same), List.find?_cons_of_neg (by simpa using same), ih]

/-- A payment handed on has the sender's members, but for its `tx` and its `txShape`. -/
theorem get_handedPayment (fields : List (String × Value)) (name : String) :
    (handedPayment (.object fields)).get name =
      if name = "txShape" then (if sentAsBytes ((Value.object fields).get "tx") then some (.string "array") else none)
      else if name = "tx" then ((Value.object fields).get "tx").map handedTx
      else (Value.object fields).get name := by
  have bare : (Value.object (modifyField "tx" handedTx (fields.filter (fun m => m.1 ≠ "txShape")))).get name =
      if name = "txShape" then none else if name = "tx" then ((Value.object fields).get "tx").map handedTx
        else (Value.object fields).get name := by
    by_cases shape : name = "txShape"
    · subst shape
      rw [get_modifyField_ne (by decide), if_pos rfl, Value.get]
      simp
    · by_cases tx : name = "tx"
      · subst tx
        rw [get_modifyField, get_filter (by decide), if_neg shape, if_pos rfl]
      · rw [get_modifyField_ne tx, get_filter shape, if_neg shape, if_neg tx]
  rw [handedPayment]
  by_cases bytes : sentAsBytes ((Value.object fields).get "tx") = true
  · simp only [bytes, if_true, Value.get_insertField, bare]
    by_cases shape : name = "txShape"
    · rw [if_pos shape.symm, if_pos shape]
    · rw [if_neg (Ne.symm shape), if_neg shape, if_neg shape]
  · rw [if_neg bytes, if_neg bytes]
    exact bare

theorem decoding_handedTx {tx : Value} {D : Bytes} (decodes : Door.decoding tx = some D) :
    Door.decoding (handedTx tx) = some D := by
  cases tx with
  | array items =>
    have read : items.mapM byteOf = some D := decodes
    rw [handedTx, read]
    exact unhex_hexEncode D
  | null | bool | number | string | object => exact decodes

/-- The hand-off tells the shape the sender sent. -/
theorem sent_shape {fields : List (String × Value)} {tx : Value} {D : Bytes} {c : Door.Carrier}
    (sent : (Value.object fields).get "tx" = some tx) (decodes : Door.decoding tx = some D)
    (found : Door.Carrier.of (handedTx tx) = some c) :
    TxShape.sent (handedPayment (.object fields)) (carried c) = shapeOf tx := by
  have told : (handedPayment (.object fields)).get "txShape" =
      if sentAsBytes ((Value.object fields).get "tx") then some (.string "array") else none := by
    rw [get_handedPayment, if_pos rfl]
  rw [TxShape.sent, told, sent]
  cases tx with
  | array items =>
    have read : items.mapM byteOf = some D := decodes
    simp [sentAsBytes, read, Value.asStr, shapeOf]
  | string h =>
    change Door.Carrier.of (.string h) = some c at found
    rw [Door.Carrier.of] at found
    split at found
    · cases found
      rfl
    · cases found
  | object inner =>
    change Door.Carrier.of (.object inner) = some c at found
    simp only [Door.Carrier.of, Option.bind_eq_some_iff] at found
    obtain ⟨beef, -, b, -, held⟩ := found
    simp only [Door.Carrier.ofBase64] at held
    split at held
    · cases held
    · split at held
      · cases held
        rfl
      · cases held
  | null | bool | number => cases decodes

/-- What is handed on differs from what was sent in the relay's members only. -/
theorem sentFields_handedPayment (payment : Value) : sentFields (handedPayment payment) = sentFields payment := by
  have relay (v : Value) (rest : List (String × Value)) :
      (("txShape", v) :: rest).filter (fun f => !rowFields.contains f.1) = rest.filter (fun f => !rowFields.contains f.1) :=
    List.filter_cons_of_neg (show ¬ (!rowFields.contains "txShape") = true by decide)
  have inserted (v : Value) (fields : List (String × Value)) :
      (Value.insertField "txShape" v fields).filter (fun f => !rowFields.contains f.1) =
        fields.filter (fun f => !rowFields.contains f.1) := by
    induction fields with
    | nil => rfl
    | cons f rest ih =>
      rw [Value.insertField]
      split
      · next same =>
        obtain ⟨name, value⟩ := f
        subst same
        rw [relay, relay]
      · split
        · rw [relay]
        · rw [List.filter_cons, List.filter_cons, ih]
  have modified (fields : List (String × Value)) :
      (modifyField "tx" handedTx fields).filter (fun f => !rowFields.contains f.1) =
        fields.filter (fun f => !rowFields.contains f.1) := by
    induction fields with
    | nil => rfl
    | cons f rest ih =>
      rw [modifyField, List.map_cons]
      by_cases own : f.1 = "tx"
      · rw [List.filter_cons_of_neg (by rw [if_pos own, own]; decide), List.filter_cons_of_neg (by rw [own]; decide)]
        exact ih
      · rw [if_neg own, List.filter_cons, List.filter_cons]
        split
        · exact congrArg (f :: ·) ih
        · exact ih
  have shapeless (fields : List (String × Value)) :
      (fields.filter (fun m => m.1 ≠ "txShape")).filter (fun f => !rowFields.contains f.1) =
        fields.filter (fun f => !rowFields.contains f.1) := by
    rw [List.filter_filter]
    apply List.filter_congr
    intro f _
    by_cases own : f.1 = "txShape"
    · rw [own]
      decide
    · simp [own]
  cases payment with
  | object fields =>
    rw [handedPayment, sentFields, sentFields]
    split
    · rw [inserted, modified, shapeless]
    · rw [modified, shapeless]
  | null | bool | number | string | array => rfl

theorem paymentAtRest_handedPayment (payment : Value) (key : String) (stamp : Stamp) (shape : TxShape)
    (txid : Option String) :
    paymentAtRest (handedPayment payment) key stamp shape txid = paymentAtRest payment key stamp shape txid := by
  simp only [paymentAtRest, sentFields_handedPayment]

/-- The sender's members of a payment at rest. -/
theorem get_sender_member {name : String} (sender : name ∉ rowFields) (payment : Value) (key : String) (stamp : Stamp)
    (shape : TxShape) (txid : Option String) :
    (Value.object (paymentAtRest payment key stamp shape txid)).get name = payment.get name := by
  have apart (relay : String) (member : relay ∈ rowFields) : relay ≠ name := fun same => sender (same ▸ member)
  rw [get_paymentAtRest, if_neg (apart _ (by decide)), if_neg (apart _ (by decide)), if_neg (apart _ (by decide)),
    if_neg (apart _ (by decide)), if_neg (apart _ (by decide)), if_neg (apart _ (by decide)), if_neg sender]

section
variable {range client : Range}

theorem byteOf_reread {p : String → Prop} {n : Nat} {v : Value} {byte : UInt8} (formed : Value.Formed p n v)
    (read : byteOf v = some byte) : byteOf (v.reread range) = some byte := by
  cases formed with
  | @number _ digits number _ =>
    have value := asU64_numberText (utf8Bytes digits)
    rw [numberText_of_isNumber number] at value
    simp only [byteOf, Option.bind_eq_some_iff] at read
    obtain ⟨m, whole, -⟩ := id read
    rw [value] at whole
    split at whole
    · next natural =>
      have kept := range.whole _ natural.2.2
      rw [toString_decimalFrom number natural.2.1] at kept
      have same : range.reprint digits = digits := by
        rw [Range.reprint, kept, numberText_of_isNumber number]
      change byteOf (.number (range.reprint digits)) = some byte
      rw [same, byteOf, Option.bind_eq_some_iff]
      exact read
    · cases whole
  | null | bool | string | array | object => cases read

/-- The bytes of a `tx` are those its text says, whatever the reader makes of other numbers. -/
theorem decoding_reread {p : String → Prop} {n : Nat} {tx : Value} {D : Bytes} (formed : Value.Formed p n tx)
    (decodes : Door.decoding tx = some D) : Door.decoding (tx.reread range) = some D := by
  cases formed with
  | @array _ items inside =>
    rw [Value.reread, Value.renumber_array]
    rw [Door.decoding] at decodes ⊢
    induction items generalizing D with
    | nil => exact decodes
    | cons item rest ih =>
      simp only [List.mapM_cons, Option.bind_eq_bind, Option.bind_eq_some_iff] at decodes
      obtain ⟨byte, first, bytes, later, same⟩ := decodes
      have tail := ih (fun item member => inside item (List.mem_cons_of_mem _ member)) later
      rw [List.map_cons, List.mapM_cons, byteOf_reread (inside item List.mem_cons_self) first, tail]
      exact same
  | @object _ fields _ _ =>
    rw [Door.decoding, Option.bind_eq_some_iff] at decodes
    obtain ⟨beef, held, decodes⟩ := decodes
    have text : ((Value.object fields).reread range).get "beef" = some (beef.reread range) := by
      rw [Value.get_reread, held]
      rfl
    rw [Value.reread_object] at text ⊢
    rw [Door.decoding, text, Option.bind_some]
    cases beef with
    | string => exact decodes
    | null | bool | number | array | object => cases decodes
  | string => exact decodes
  | null | bool | number => cases decodes

theorem shapeOf_reread (tx : Value) : shapeOf (tx.reread range) = shapeOf tx := by
  cases tx <;> rfl

/-- A payment came back as it was sent, as a client reads both: its `tx` in the shape and the bytes sent and no longer
than told, and every other member the sender's. Its `outputs` are the recipient's. -/
def CameBack (client : Range) (payment tx : Value) (D : Bytes) (served : Served) : Prop :=
  ∃ text row back tx', served = .body text ∧ Value.fromSlice client text = some row ∧
    row.get "payment" = some back ∧ back.get "tx" = some tx' ∧ shapeOf tx' = shapeOf tx ∧ Door.decoding tx' = some D ∧
    (valueText tx').length ≤ encodedLen D.length (shapeOf tx) ∧
    ∀ name, name ∉ rowFields → name ≠ "outputs" → back.get name = (payment.get name).map (Value.reread client)

/-- Every number of the sender's own members, read and printed once as the body is stored and once more as the row is
served, is to the client the number sent. -/
def NumbersSurvive (range client : Range) (payment : Value) : Prop :=
  ∀ name, name ∉ rowFields → name ≠ "outputs" → ∀ field, payment.get name = some field →
    ∀ digits ∈ field.numbers, client.reprint (range.reprint (range.reprint digits)) = client.reprint digits

theorem reread_thrice_iff {p : String → Prop} {n : Nat} {field : Value} (formed : Value.Formed p n field) :
    ((field.reread range).reread range).reread client = field.reread client ↔
      ∀ digits ∈ field.numbers, client.reprint (range.reprint (range.reprint digits)) = client.reprint digits := by
  rw [Value.reread, Value.reread, Value.reread, formed.renumber_renumber, formed.renumber_renumber]
  exact formed.renumber_eq_iff

/-- What a client reads in a row served with its bytes read back. -/
theorem readBack_read {message : Value} {fields : List (String × Value)}
    (readable : Value.Readable range 127 (paidRow message (.object fields)))
    (holds : ∀ token, range.holds token = true → client.holds token = true) (bytes : Bytes) (shape : TxShape) :
    ∃ row back, Value.fromSlice client (valueText
        (setPayment "tx" (txValue bytes shape) ((paidRow message (.object fields)).reread range))) = some row ∧
      row.get "payment" = some back ∧ back.get "tx" = some (txValue bytes shape) ∧
      ∀ name, name ≠ "tx" → back.get name =
        ((Value.object fields).get name).map (fun field => (field.reread range).reread client) := by
  have again := Value.Readable.reread readable
  have set : setPayment "tx" (txValue bytes shape) ((paidRow message (.object fields)).reread range) =
      paidRow (message.reread range) (.object (Value.insertField "tx" (txValue bytes shape)
        (fields.map (fun m => (m.1, m.2.reread range))))) := by
    rw [reread_paidRow, Value.reread_object, setPayment_paidRow]
  rw [reread_paidRow, Value.reread_object] at again
  have served : Value.Readable client 127 (paidRow (message.reread range) (.object (Value.insertField "tx"
      (txValue bytes shape) (fields.map (fun m => (m.1, m.2.reread range)))))) := by
    have text := txValue_writable client 124 bytes shape
    have kept : Value.Readable client 127 _ := again.mono (fun _ _ => holds _)
    cases kept with
    | object _ inside =>
      exact paidRow_formed (inside (_, message.reread range) List.mem_cons_self)
        (insertField_formed "tx" (inside (_, .object _) (List.mem_cons_of_mem _ List.mem_cons_self)) text.readable)
  have parsed := Value.fromSlice_printed served
  rw [reread_paidRow] at parsed
  rw [set]
  refine ⟨_, _, parsed, get_paidRow .., ?_, fun name other => ?_⟩
  · rw [Value.get_reread, Value.get_insertField, if_pos rfl, Option.map_some]
    exact congrArg some (txValue_writable client 124 bytes shape).reread
  · rw [Value.get_reread, Value.get_insertField, if_neg (Ne.symm other), ← Value.reread_object, Value.get_reread,
      Option.map_map]
    rfl

/-- A payment comes back as it was sent exactly where its numbers survive, whatever else is in its row and however the
bucket cuts its bytes. -/
theorem cameBack_iff {payment tx message outputs : Value} {D : Bytes} {key etag : String} {txid : Option String}
    {bucket : Bucket} {stream : List Bytes} {uuid : Bytes} {left : Nat} {p : String → Prop}
    (written : Value.Formed p 126 payment) (readable : Value.Readable range 126 (payment.reread range))
    (first : Value.Readable range 126 message) (second : Value.Readable range 125 outputs)
    (holds : ∀ token, range.holds token = true → client.holds token = true) (bounded : bucket.Bounded)
    (gives : GivesChunks bucket key ⟨D.length, etag⟩ stream) (bytes : stream.flatten = D) :
    let atRest := Value.object (paymentAtRest (payment.reread range) key ⟨D.length, etag⟩ (shapeOf tx) txid)
    let stored := utf8Bytes (storedBody message (some (atRest, outputs)))
    (∀ row, Value.fromSlice range stored = some row → ¬ utf8Bytes (mark uuid) <:+: valueText row) →
    encodedLen D.length (shapeOf tx) ≤ listInlineObjectBytes →
    encodedLen D.length (shapeOf tx) + stored.length + 6 ≤ left →
    (CameBack client payment tx D (serveBody range bucket uuid stored left).1 ↔
      NumbersSurvive range client payment) := by
  simp only [storedBody_eq, storedRow, withOutputs]
  intro fresh inlined room
  have few : D.length ≤ objectBytes := bytes ▸ gives.bounded bounded
  have bound : D.length < 2 ^ 64 := few.trans_lt (by decide)
  have atRest := paymentAtRest_readable _ key ⟨D.length, etag⟩ (shapeOf tx) txid readable bound
  have stored := paidRow_formed first (insertField_formed "outputs" atRest second)
  have names := restOf_atRest (payment.reread range) key ⟨D.length, etag⟩ (shapeOf tx) txid bound outputs
  have served := serveBody_readBack stored names gives (fresh _ (Value.fromSlice_printed stored)) inlined room
  obtain ⟨row, back, parsed, paid, tx', members⟩ := readBack_read stored holds stream.flatten (shapeOf tx)
  have member (name : String) (sender : name ∉ rowFields) (other : name ≠ "outputs") : back.get name =
      (payment.get name).map (fun field => ((field.reread range).reread range).reread client) := by
    rw [members name (fun own => sender (own ▸ by decide)), Value.get_insertField, if_neg (Ne.symm other),
      get_sender_member sender, Value.get_reread, Option.map_map]
    rfl
  have survive : (∀ name, name ∉ rowFields → name ≠ "outputs" →
      back.get name = (payment.get name).map (Value.reread client)) ↔ NumbersSurvive range client payment := by
    refine forall₃_congr (fun name sender other => ?_)
    rw [member name sender other]
    cases held : payment.get name with
    | none => exact iff_of_true rfl nofun
    | some field =>
      rw [Option.map_some, Option.map_some, Option.some.injEq, reread_thrice_iff (written.get held)]
      exact ⟨fun kept field' same => Option.some.inj same ▸ kept, fun kept => kept field rfl⟩
  rw [← survive]
  constructor
  · rintro ⟨text, row', back', tx'', body, parsed', paid', -, -, -, -, kept⟩
    rw [served] at body
    cases body
    rw [parsed, Option.some.injEq] at parsed'
    subst parsed'
    rw [paid, Option.some.injEq] at paid'
    subst paid'
    exact kept
  · intro kept
    refine ⟨_, row, back, _, congrArg Prod.fst served, parsed, paid, tx', shapeOf_txValue .., ?_, ?_, kept⟩
    · rw [decoding_txValue, bytes]
    · rw [bytes]
      exact length_txValue D (few.trans_lt (by decide)) (shapeOf tx)

/-- A payment that is accepted comes back as it was sent exactly where its numbers survive. -/
theorem payment_comes_back_iff {raw : Text} {w v payment tx : Value} {D : Bytes} (small : raw.length ≤ sendBodyBytes)
    (written : Value.fromSlice everyNumber raw = some w) (parsed : Value.fromSlice range raw = some v)
    (holds : ∀ token, range.holds token = true → client.holds token = true) (paid : w.get "payment" = some payment)
    (sent : payment.get "tx" = some tx) (decodes : Door.decoding tx = some D) :
    readSendBody range raw = .ok (handed v) ∧
      (handed v).get "payment" = some (handedPayment (payment.reread range)) ∧
      ∃ c, ((handedPayment (payment.reread range)).get "tx").bind Door.Carrier.of = some c ∧ c.len = D.length ∧
      ∀ (key etag : String) (txid : Option String) (message outputs : Value) (bucket : Bucket) (stream : List Bytes)
        (uuid : Bytes) (left : Nat),
        let shape := TxShape.sent (handedPayment (payment.reread range)) (carried c)
        let atRest := Value.object (paymentAtRest (handedPayment (payment.reread range)) key ⟨c.len, etag⟩ shape txid)
        let stored := utf8Bytes (storedBody message (some (atRest, outputs)))
        Value.Readable range 126 message → Value.Readable range 125 outputs → bucket.Bounded →
        GivesChunks bucket key ⟨c.len, etag⟩ stream → stream.flatten = D →
        (∀ row, Value.fromSlice range stored = some row → ¬ utf8Bytes (mark uuid) <:+: valueText row) →
        encodedLen c.len shape ≤ listInlineObjectBytes → encodedLen c.len shape + stored.length + 6 ≤ left →
        (CameBack client payment tx D (serveBody range bucket uuid stored left).1 ↔
          NumbersSurvive range client payment) := by
  have same := Value.fromSlice_written parsed written
  have payment' : v.get "payment" = some (payment.reread range) := by
    rw [← same, Value.get_reread, paid]
    rfl
  have formed : Value.Formed _ 126 payment := (Value.readable_of_fromSlice written).get paid
  have readable : Value.Readable range 126 (payment.reread range) := (Value.readable_of_fromSlice parsed).get payment'
  obtain ⟨vFields, rfl⟩ : ∃ fields, v = .object fields := by
    cases v with
    | object fields => exact ⟨fields, rfl⟩
    | null | bool | number | string | array => cases payment'
  obtain ⟨fields, rfl⟩ : ∃ fields, payment = .object fields := by
    cases payment with
    | object fields => exact ⟨fields, rfl⟩
    | null | bool | number | string | array => cases sent
  have sent' : ((Value.object fields).reread range).get "tx" = some (tx.reread range) := by
    rw [Value.get_reread, sent]
    rfl
  have decodes' : Door.decoding (tx.reread range) = some D := decoding_reread (formed.get sent) decodes
  have handed' : (handed (.object vFields)).get "payment" =
      some (handedPayment ((Value.object fields).reread range)) := by
    rw [handed, get_modifyField, payment']
    rfl
  obtain ⟨c, found⟩ : ∃ c, Door.Carrier.of (handedTx (tx.reread range)) = some c := by
    rw [← Option.isSome_iff_exists, Door.Carrier.of_isSome, decoding_handedTx decodes']
    rfl
  obtain ⟨D', bytes', holds'⟩ := Door.Carrier.of_eq_some found
  rw [decoding_handedTx decodes', Option.some.injEq] at bytes'
  subst bytes'
  have size := Door.Carrier.len_eq holds'
  rw [Value.reread_object] at sent' readable handed' ⊢
  have shape := sent_shape sent' decodes' found
  rw [shapeOf_reread] at shape
  have tx' : (handedPayment (.object (fields.map (fun m => (m.1, m.2.reread range))))).get "tx" =
      some (handedTx (tx.reread range)) := by
    rw [get_handedPayment, if_neg (by decide), if_pos rfl, sent']
    rfl
  obtain ⟨front, seg, back, rfl, space, space', derived⟩ := read_eq_some_iff.mp parsed
  refine ⟨readSendBody_derives small space space' derived, handed', c, by rw [tx']; exact found, size, ?_⟩
  intro key etag txid message outputs bucket stream uuid left
  simp only [shape, size, paymentAtRest_handedPayment]
  rw [← Value.reread_object] at readable ⊢
  exact fun first second bounded gives bytes fresh inlined room =>
    cameBack_iff formed readable first second holds bounded gives bytes fresh inlined room

end

/-- What serde_json makes by default of three numbers it reads one division away from the nearest it can hold. -/
def bestEffortText (token : Text) : Text :=
  if token = utf8Bytes "0.9563109707457255" then utf8Bytes "0.9563109707457256"
  else if token = utf8Bytes "4e-289" then utf8Bytes "3.9999999999999996e-289"
  else if token = utf8Bytes "3.9999999999999996e-289" then utf8Bytes "4e-289"
  else token

theorem bestEffortText_cases (token : Text) : bestEffortText token = token ∨
    isNumber (bestEffortText token) = true ∧ (bestEffortText token).all isDigit = false := by
  unfold bestEffortText
  split_ifs
  · exact .inr (by decide +kernel)
  · exact .inr (by decide +kernel)
  · exact .inr (by decide +kernel)
  · exact .inl rfl

def bestEffort : Range where
  holds _ := true
  printed := bestEffortText
  small _ _ := rfl
  whole n _ := by
    have apart (s : String) (c : Char) (inside : c ∈ s.toList) (other : ¬ (0x30 ≤ c.toNat ∧ c.toNat ≤ 0x39)) :
        utf8Bytes (toString n) ≠ utf8Bytes s := fun same =>
      other (toString_digit (utf8Bytes_injective same ▸ inside))
    rw [bestEffortText, if_neg (apart _ '.' (by decide) (by decide)), if_neg (apart _ 'e' (by decide) (by decide)),
      if_neg (apart _ '.' (by decide) (by decide))]
  prints token number _ := by
    rcases bestEffortText_cases token with same | other
    · exact ⟨same.symm ▸ number, rfl⟩
    · exact ⟨other.1, rfl⟩
  apart token _ _ all := (bestEffortText_cases token).resolve_right (fun other => by simp [other.2] at all)

/-- Two bytes, cut between them. -/
def twoByteBucket : Bucket := fun _ => .ok (some ⟨"e", .ok [.ok [1], .ok [255]]⟩)

/-- Two bytes, and an amount beside them. -/
def paidWith (amount : String) : Value :=
  .object [("amount", .number amount), ("tx", .array [.number "1", .number "255"])]

/-- The row of such a payment, as it is served. -/
def servedWith (amount : String) : Served :=
  (serveBody bestEffort twoByteBucket [7] (utf8Bytes (storedBody (.string "hi")
    (some (.object (paymentAtRest (handedPayment ((paidWith amount).reread bestEffort)) "k" ⟨2, "e"⟩ .array none),
      .array [])))) 1000).1

section
variable {amount : String}

theorem paidWith_formed {p : String → Prop} (number : isNumber (utf8Bytes amount) = true) (kind : p amount)
    (natural : ∀ n : Nat, n < 2 ^ 64 → p (toString n)) : Value.Formed p 126 (paidWith amount) := by
  refine .object (List.pairwise_pair.mpr (show "amount" < "tx" by decide)) (fun m member => ?_)
  simp only [List.mem_cons, List.not_mem_nil, or_false] at member
  rcases member with rfl | rfl
  · exact .number number kind
  · refine .array (fun item member => ?_)
    simp only [List.mem_cons, List.not_mem_nil, or_false] at member
    rcases member with rfl | rfl
    · exact .number (isNumber_toString 1) (natural 1 (by decide))
    · exact .number (isNumber_toString 255) (natural 255 (by decide))

theorem paidWith_readable (number : isNumber (utf8Bytes amount) = true) :
    Value.Readable bestEffort 126 (paidWith amount) := paidWith_formed number rfl bestEffort.small

theorem survive_iff : NumbersSurvive bestEffort everyNumber (paidWith amount) ↔
    everyNumber.reprint (bestEffort.reprint (bestEffort.reprint amount)) = everyNumber.reprint amount := by
  constructor
  · intro kept
    exact kept "amount" (by decide) (by decide) (.number amount) rfl amount List.mem_cons_self
  · intro kept name sender other field held digits member
    by_cases own : name = "amount"
    · subst own
      cases held
      rw [List.mem_singleton.mp member]
      exact kept
    · have apart : name ≠ "tx" := fun same => sender (same ▸ by decide)
      simp [paidWith, Value.get, Ne.symm own, Ne.symm apart] at held

theorem twoByteBucket_gives : twoByteBucket.Bounded ∧ GivesChunks twoByteBucket "k" ⟨2, "e"⟩ [[1], [255]] := by
  refine ⟨?_, _, rfl, rfl, rfl, by decide⟩
  rintro key object stream ⟨rfl⟩ body
  have same : [[1], [255]].map (Except.ok (ε := String)) = stream.map .ok := Except.ok.inj body
  rw [← List.map_injective_iff.mpr (fun _ _ => Except.ok.inj) same]
  decide

/-- The row of such a payment as it reads, and no mark in it. -/
theorem paidWith_fresh (number : isNumber (utf8Bytes amount) = true)
    (fresh : ¬ utf8Bytes (mark [7]) <:+: valueText ((storedRow (.string "hi") (some (.object (paymentAtRest
      ((paidWith amount).reread bestEffort) "k" ⟨2, "e"⟩ .array none), .array []))).reread bestEffort)) :
    ∀ row, Value.fromSlice bestEffort (utf8Bytes (storedBody (.string "hi") (some (.object (paymentAtRest
      ((paidWith amount).reread bestEffort) "k" ⟨2, "e"⟩ .array none), .array [])))) = some row →
        ¬ utf8Bytes (mark [7]) <:+: valueText row := by
  have payment := (paidWith_readable number).reread
  have atRest := paymentAtRest_readable _ "k" ⟨2, "e"⟩ .array none payment (by decide)
  have message : Value.Readable bestEffort 126 (.string "hi") := .string
  have stored := paidRow_formed message (insertField_formed "outputs" atRest (.array (List.forall_mem_nil _)))
  intro row parsed
  rw [storedBody_eq] at parsed
  rw [← Option.some.inj ((Value.fromSlice_printed stored).symm.trans parsed)]
  exact fresh

end

/-- An amount that is held as it was written. -/
theorem half_comes_back : CameBack everyNumber (paidWith "0.5") (.array [.number "1", .number "255"]) [1, 255]
    (servedWith "0.5") := by
  have number : isNumber (utf8Bytes "0.5") = true := by decide +kernel
  have holds : ∀ token, bestEffort.holds token = true → everyNumber.holds token = true := fun _ _ => rfl
  have body : Value.Readable bestEffort 127 (.object [("payment", paidWith "0.5")]) :=
    .object (List.pairwise_singleton ..) (List.forall_mem_singleton.mpr (paidWith_readable number))
  have kept : Value.Writable bestEffort 126 (paidWith "0.5") := by
    refine paidWith_formed number ⟨rfl, by decide +kernel⟩ (fun n small => ⟨rfl, ?_⟩)
    rw [Range.reprint, bestEffort.whole n small, numberText_toString]
  obtain ⟨-, -, c, found, -, comes⟩ := payment_comes_back_iff (by decide +kernel) (Value.fromSlice_text body.written)
    (Value.fromSlice_printed body) holds (show _ = some (paidWith "0.5") from rfl)
    (show _ = some (Value.array [.number "1", .number "255"]) from rfl) (show _ = some [1, 255] from rfl)
  have hex : ((handedPayment ((paidWith "0.5").reread bestEffort)).get "tx").bind Door.Carrier.of =
      some (.hex [0x30, 0x31, 0x66, 0x66]) := by
    rw [kept.reread]
    rfl
  rw [hex, Option.some.injEq] at found
  subst found
  obtain ⟨bounded, gives⟩ := twoByteBucket_gives
  exact (comes "k" "e" none (.string "hi") (.array []) twoByteBucket [[1], [255]] [7] 1000 .string
    (.array (List.forall_mem_nil _)) bounded gives rfl (paidWith_fresh number (by decide +kernel)) (by decide)
    (by decide +kernel)).mpr (survive_iff.mpr (by decide +kernel))

/-- An amount is read as the number beside the nearest one, and comes back as that. -/
theorem amount_changed : readSendBody bestEffort (utf8Bytes (Value.object
      [("payment", paidWith "0.9563109707457255")]).text) =
        .ok (handed ((Value.object [("payment", paidWith "0.9563109707457255")]).reread bestEffort)) ∧
    ¬ CameBack everyNumber (paidWith "0.9563109707457255") (.array [.number "1", .number "255"]) [1, 255]
      (servedWith "0.9563109707457255") := by
  have number : isNumber (utf8Bytes "0.9563109707457255") = true := by decide +kernel
  have holds : ∀ token, bestEffort.holds token = true → everyNumber.holds token = true := fun _ _ => rfl
  have payment := paidWith_readable number
  have body : Value.Readable bestEffort 127 (.object [("payment", paidWith "0.9563109707457255")]) :=
    .object (List.pairwise_singleton ..) (List.forall_mem_singleton.mpr payment)
  constructor
  · have accepted := readSendBody_derives (by decide +kernel) space_nil space_nil body.derives
    rwa [List.nil_append, List.append_nil] at accepted
  · obtain ⟨bounded, gives⟩ := twoByteBucket_gives
    have message : Value.Readable bestEffort 126 (.string "hi") := .string
    have comes : CameBack everyNumber (paidWith "0.9563109707457255") (.array [.number "1", .number "255"]) [1, 255]
        (serveBody bestEffort twoByteBucket [7] _ 1000).1 ↔ _ :=
      cameBack_iff payment payment.reread message (.array (List.forall_mem_nil _)) holds bounded gives rfl
        (paidWith_fresh number (by decide +kernel)) (by decide) (by decide +kernel)
    rw [servedWith, paymentAtRest_handedPayment]
    exact fun back => absurd (survive_iff.mp (comes.mp back)) (by decide +kernel)

end MessageRelay.Handoff
