import MessageRelay.Handoff.RowText

/-! How a row is served: one whose payment names bytes at rest with them read back or by its key, every other as stored.
A payment put at rest comes back in the shape it was sent in, with every other member as the sender sent it. -/

namespace MessageRelay.Handoff
open MessageRelay.Lane MessageRelay.Library MessageRelay.Library.Json MessageRelay.Session MessageRelay.Payments
open MessageRelay.Send

section
variable {range : Range} {bucket : Bucket} {uuid : Bytes} {left : Nat} {message : Value}

theorem restOf_object {payment : Value} {rest : String × Stamp × TxShape} (names : restOf payment = some rest) :
    ∃ fields, payment = .object fields ∧ (Value.object fields).get "beefR2Key" = some (.string rest.1) := by
  simp only [restOf, Option.bind_eq_bind, Option.bind_eq_some_iff] at names
  obtain ⟨key, ⟨v, held, isText⟩, size, -, etag, -, shape, -, same⟩ := names
  cases same
  cases v with
  | string s =>
    cases isText
    cases payment with
    | object fields => exact ⟨fields, rfl, held⟩
    | null | bool | number | string | array => cases held
  | null | bool | number | array | object => cases isText

theorem get_paidRow (message payment : Value) : (paidRow message payment).get "payment" = some payment := by
  simp [paidRow, Value.get]

theorem asU64_reread {n : Nat} {v : Value} (readable : Value.Readable range n v) :
    asU64 (v.reread range) = asU64 v := by
  cases readable with
  | number number held =>
    have printed := asU64_printed number held
    rwa [numberText_of_isNumber number] at printed
  | null | bool | string | array | object => rfl

/-- A payment names the same bytes as its row reads. -/
theorem restOf_reread {n : Nat} {payment : Value} (readable : Value.Readable range (n + 1) payment) :
    restOf (payment.reread range) = restOf payment := by
  have text (name : String) :
      ((payment.reread range).get name).bind Value.asStr = (payment.get name).bind Value.asStr := by
    rw [Value.get_reread]
    cases payment.get name with
    | none => rfl
    | some v => cases v <;> rfl
  have size : ((payment.reread range).get "beefSize").bind asU64 = (payment.get "beefSize").bind asU64 := by
    rw [Value.get_reread]
    cases held : payment.get "beefSize" with
    | none => rfl
    | some v => exact asU64_reread (readable.get held)
  rw [restOf, restOf, text, text, text, size]

theorem reread_paidRow (message payment : Value) :
    (paidRow message payment).reread range = paidRow (message.reread range) (payment.reread range) := rfl

/-- A row whose payment names bytes at rest. -/
theorem serveBody_named {fields : List (String × Value)} {key : String} {stamp : Stamp} {shape : TxShape}
    (readable : Value.Readable range 127 (paidRow message (.object fields)))
    (names : restOf (.object fields) = some (key, stamp, shape)) :
    serveBody range bucket uuid (valueText (paidRow message (.object fields))) left =
      let row := (paidRow message (.object fields)).reread range
      if listInlineObjectBytes < encodedLen stamp.size shape then
        counted (valueText (byKey key (largeWords stamp.size key) row)) left
      else if left < encodedLen stamp.size shape + (valueText (paidRow message (.object fields))).length + 6 then
        (.nextListing, left)
      else
        match txText bucket key stamp shape with
        | .error _ => counted (valueText (byKey key (unreadWords key) row)) left
        | .ok tx =>
          let served := replaceFirst (quote :: (utf8Bytes (mark uuid) ++ [quote])) tx
            (valueText (setPayment "tx" (.string (mark uuid)) row))
          (.body served, left - served.length) := by
  obtain ⟨_, ⟨rfl⟩, held⟩ := restOf_object names
  have inside : quotedText "beefR2Key" <:+: valueText (paidRow message (.object fields)) :=
    (List.prefix_append _ _).isInfix.trans (row_holds held message)
  have parsed : Value.fromSlice range (valueText (paidRow message (.object fields))) =
      some ((paidRow message (.object fields)).reread range) := Value.fromSlice_printed readable
  have rest : (((paidRow message (.object fields)).reread range).get "payment").bind restOf =
      some (key, stamp, shape) := by
    rw [reread_paidRow, get_paidRow, Option.bind_some, ← names]
    exact restOf_reread (readable.get (get_paidRow message (.object fields)))
  rw [serveBody, if_pos inside, parsed]
  dsimp only
  generalize (((paidRow message (.object fields)).reread range).get "payment").bind restOf = found at rest ⊢
  subst rest
  rfl

/-- The bytes are read back, where the bucket gives them and the most they can be fits. -/
theorem serveBody_readBack {fields : List (String × Value)} {key : String} {stamp : Stamp} {shape : TxShape}
    {stream : List Bytes} (readable : Value.Readable range 127 (paidRow message (.object fields)))
    (names : restOf (.object fields) = some (key, stamp, shape)) (gives : GivesChunks bucket key stamp stream)
    (fresh : ¬ utf8Bytes (mark uuid) <:+: valueText ((paidRow message (.object fields)).reread range))
    (inlined : encodedLen stamp.size shape ≤ listInlineObjectBytes)
    (room : encodedLen stamp.size shape + (valueText (paidRow message (.object fields))).length + 6 ≤ left) :
    serveBody range bucket uuid (valueText (paidRow message (.object fields))) left =
      let served := valueText
        (setPayment "tx" (txValue stream.flatten shape) ((paidRow message (.object fields)).reread range))
      (.body served, left - served.length) := by
  have read : txText bucket key stamp shape = .ok (valueText (txValue stream.flatten shape)) :=
    (txText_ok_iff ..).mpr ⟨stream, gives, rfl⟩
  rw [serveBody_named readable names]
  simp only [if_neg (Nat.not_lt.mpr inlined), if_neg (Nat.not_lt.mpr room), read]
  rw [reread_paidRow, Value.reread_object] at fresh ⊢
  rw [setPayment_paidRow, setPayment_paidRow, marked_replaced fresh]

theorem insertField_formed {p : String → Prop} {n : Nat} {fields : List (String × Value)} (name : String) {v : Value}
    (formed : Value.Formed p (n + 1) (.object fields)) (value : Value.Formed p n v) :
    Value.Formed p (n + 1) (.object (Value.insertField name v fields)) := by
  cases formed with
  | object ordered inside =>
    refine .object (Value.insertField_ordered name v ordered) (fun f member => ?_)
    rcases Value.mem_insertField member with rfl | early
    · exact value
    · exact inside f early

theorem paidRow_formed {p : String → Prop} {n : Nat} {payment : Value} (first : Value.Formed p n message)
    (second : Value.Formed p n payment) : Value.Formed p (n + 1) (paidRow message payment) := by
  refine .object ?_ (fun f member => ?_)
  · exact List.pairwise_pair.mpr (show "message" < "payment" by decide)
  · simp only [List.mem_cons, List.not_mem_nil, or_false] at member
    rcases member with rfl | rfl
    · exact first
    · exact second

end

end MessageRelay.Handoff
