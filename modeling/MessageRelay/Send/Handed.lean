import MessageRelay.Send.ReadBodyBytes
import MessageRelay.Send.ReadBodyRewrite

/-! A send's body read through its text is the body its text says, with the payment's `tx` as it is handed on. -/

namespace MessageRelay.Send
open MessageRelay.Lane MessageRelay.Library MessageRelay.Library.Json MessageRelay.Session MessageRelay.Payments

def isArray : Value → Bool
  | .array _ => true
  | _ => false

/-- A payment with its `tx` as it is handed on, and its `txShape` as it was sent. -/
def bareTx : Value → Value
  | .object fields => .object (modifyField "tx" handedTx fields)
  | v => v

theorem modifyField_eq (name : String) (f : Value → Value) (fields : List (String × Value)) :
    modifyField name f fields = fields.map (fun m => (m.1, if m.1 = name then f m.2 else m.2)) := by
  rw [modifyField]
  apply List.map_congr_left
  intro m _
  split <;> rfl

theorem collect_modifyField (name : String) (f : Value → Value) (ms : List (String × Value)) :
    Value.collect (ms.map (fun m => (m.1, if m.1 = name then f m.2 else m.2))) = modifyField name f (Value.collect ms) := by
  rw [modifyField_eq]
  exact Value.collect_map (fun k v => if k = name then f v else v) ms

/-- What a name finds, by the last member that has it. -/
theorem map_get_collect {α : Type} (name : String) (f : Value → α) (ms : List (String × Value)) :
    ((Value.object (Value.collect ms)).get name).map f =
      ms.reverse.findSome? (fun m => if m.1 = name then some (f m.2) else none) := by
  rw [Value.get_collect]
  induction ms.reverse with
  | nil => rfl
  | cons m rest ih => by_cases same : m.1 = name <;> simp [same, ← ih]

theorem hexEncode_plain (bytes : Bytes) : ∀ c ∈ (hexEncode bytes).toList, isPlain c = true := by
  have nibble : ∀ n < 16, isPlain (hexOfNibble n) = true := by decide
  intro c member
  simp only [hexEncode, String.toList_ofList, List.mem_flatMap, List.mem_cons, List.not_mem_nil, or_false] at member
  obtain ⟨b, -, rfl | rfl⟩ := member
  · exact nibble _ (Nat.div_lt_of_lt_mul b.toNat_lt)
  · exact nibble _ (Nat.mod_lt _ (by decide))

section
variable {range : Range}

theorem opens_array {n : Nat} {v : Value} {seg : Text} (derived : Derives Value.builder range n (.value v) seg) :
    decide (seg.head? = some openArray) = isArray v := by
  by_cases array : seg.head? = some openArray
  · obtain ⟨items, rfl, -⟩ := arrayBytes_derives derived array
    rw [decide_eq_true array]
    rfl
  · rw [decide_eq_false array]
    generalize phrase : Phrase.value v = p at derived
    cases derived with
    | null | bool | number | string | emptyObject | object =>
      cases phrase
      rfl
    | emptyArray | array => exact absurd rfl array
    | lastItem | item | member | lastMember | members => cases phrase

theorem opens_object {n : Nat} {fields : List (String × Value)} {seg : Text}
    (derived : Derives Value.builder range n (.value (.object fields)) seg) : seg.head? = some openObject := by
  generalize phrase : Phrase.value (Value.object fields) = p at derived
  cases derived with
  | emptyObject | object => rfl
  | null | bool | number | string | emptyArray | array => cases phrase
  | lastItem | item | member | lastMember | members => cases phrase

/-- What is written for a `tx` is the text of the `tx` handed on. -/
theorem writtenTx_derives {n : Nat} {v : Value} {seg : Text} (derived : Derives Value.builder range n (.value v) seg) :
    Derives Value.builder range n (.value (handedTx v)) (writtenTx seg) := by
  rw [writtenTx]
  split
  · next array =>
    obtain ⟨items, rfl, read⟩ := arrayBytes_derives derived array
    rw [handedTx, read]
    cases items.mapM byteOf with
    | none => exact .bool
    | some bytes =>
      have quoted := quoted_quotedText (hexEncode bytes)
      rw [quotedText_plain (hexEncode_plain bytes)] at quoted
      exact .string quoted
  · next other =>
    have apart := opens_array derived
    rw [decide_eq_false other] at apart
    cases v with
    | array => cases apart
    | null | bool | number | string | object => exact derived

/-- The span of a member that is a `tx`. -/
def txSpan (t : Member) : List Span := if t.key = "tx" then [(t.value, t.stop)] else []

theorem edits_tx {n : Nat} (c : Cell Value.builder range n) :
    Edits range n (fun rest => txSpan (scanned c rest)) c.text (if c.name = "tx" then handedTx c.value else c.value)
      (if c.name = "tx" then some (isArray c.value) else none) := by
  obtain ⟨b, more, text, -⟩ := c.derived.head
  by_cases named : c.name = "tx"
  · simp only [txSpan, scanned, named, if_true]
    refine ⟨writtenTx c.text, writtenTx_derives c.derived, .own (text ▸ List.cons_ne_nil b more), fun rest => ?_⟩
    rw [← opens_array c.derived, text]
    rfl
  · simp only [txSpan, scanned, named, if_false]
    exact ⟨c.text, c.derived, .keep c.text, fun _ => rfl⟩

def arrayTx (payment : Value) : Option Bool := (payment.get "tx").map isArray

theorem txOf_eq (m : Member) : txOf m =
    if m.key = "payment" ∧ m.value.head? = some openObject then (members m.value).1.flatMap txSpan else [] := by
  rw [txOf]
  congr 1
  induction (members m.value).1 with
  | nil => rfl
  | cons t rest ih => by_cases named : t.key = "tx" <;> simp [txSpan, named, ih]

theorem edits_payment {n : Nat} (c : Cell Value.builder range n) :
    Edits range n (fun rest => txOf (scanned c rest)) c.text (if c.name = "payment" then bareTx c.value else c.value)
      (if c.name = "payment" then arrayTx c.value else none) := by
  obtain ⟨b, more, text, -⟩ := c.derived.head
  have head (rest : Text) : (c.text ++ rest).head? = c.text.head? := by rw [text]; rfl
  have found (rest : Text) : txOf (scanned c rest) =
      if c.name = "payment" ∧ c.text.head? = some openObject then (members (c.text ++ rest)).1.flatMap txSpan else [] := by
    rw [txOf_eq, scanned, head]
  simp only [found]
  by_cases named : c.name = "payment"
  · by_cases opens : c.text.head? = some openObject
    · obtain ⟨ms, value, edits⟩ := edits_object c.derived opens txSpan (fun m => if m.1 = "tx" then handedTx m.2 else m.2)
        (fun m => if m.1 = "tx" then some (isArray m.2) else none) edits_tx
      simp only [named, opens, and_self, if_true]
      rw [value, bareTx, arrayTx, ← collect_modifyField, map_get_collect]
      exact edits
    · have other : bareTx c.value = c.value ∧ arrayTx c.value = none := by
        cases value : c.value with
        | object fields => exact absurd (opens_object (value ▸ c.derived)) opens
        | null | bool | number | string | array => exact ⟨rfl, rfl⟩
      simp only [named, opens, and_false, if_true, if_false, other]
      exact ⟨c.text, c.derived, .keep c.text, fun _ => rfl⟩
  · simp only [named, false_and, if_false]
    exact ⟨c.text, c.derived, .keep c.text, fun _ => rfl⟩

end

theorem filter_modifyField (name other : String) (f : Value → Value) (fields : List (String × Value)) :
    (modifyField name f fields).filter (fun m => m.1 ≠ other) =
      modifyField name f (fields.filter (fun m => m.1 ≠ other)) := by
  rw [modifyField_eq, modifyField_eq, List.filter_map]
  rfl

theorem get_modifyField (name : String) (f : Value → Value) (fields : List (String × Value)) :
    (Value.object (modifyField name f fields)).get name = ((Value.object fields).get name).map f := by
  rw [modifyField_eq, Value.get, Value.get]
  induction fields with
  | nil => rfl
  | cons m rest ih =>
    by_cases same : m.1 = name
    · simp [same]
    · rw [List.map_cons, List.find?_cons_of_neg (by simpa using same), List.find?_cons_of_neg (by simpa using same), ih]

theorem get_filter {name other : String} (apart : name ≠ other) (fields : List (String × Value)) :
    (Value.object (fields.filter (fun m => m.1 ≠ other))).get name = (Value.object fields).get name := by
  rw [Value.get, Value.get, List.find?_filter]
  congr 2
  funext m
  by_cases same : m.1 = name <;> simp [same, apart]

/-- The relay's shape is put where the `tx` was an array of bytes. -/
theorem shaped_bareTx {payment : Value} {sentAsArray : Bool} (told : ∀ b, arrayTx payment = some b → sentAsArray = b) :
    shaped sentAsArray (bareTx payment) = handedPayment payment := by
  cases payment with
  | object fields =>
    have tx : (Value.object (modifyField "tx" handedTx (fields.filter (fun m => m.1 ≠ "txShape")))).get "tx" =
        ((Value.object fields).get "tx").map handedTx := by
      rw [get_modifyField, get_filter (by decide)]
    have same : (sentAsArray && (((Value.object fields).get "tx").map handedTx |>.bind Value.asStr).isSome) =
        sentAsBytes ((Value.object fields).get "tx") := by
      cases sent : (Value.object fields).get "tx" with
      | none => simp [sentAsBytes]
      | some t =>
        rw [told (isArray t) (by rw [arrayTx, sent]; rfl)]
        cases t with
        | array items =>
          rw [Option.map_some, handedTx, sentAsBytes]
          cases items.mapM byteOf <;> rfl
        | null | bool | number | string | object => rfl
    rw [bareTx, shaped, filter_modifyField, handedPayment, ← same, tx]
    split <;> simp_all
  | null | bool | number | string | array => rfl

theorem findSome?_told {α β : Type} {p : α → Prop} [DecidablePred p] {g : α → Option β} {xs : List α} {b : β}
    (found : xs.findSome? (fun x => if p x then some (g x) else none) = some (some b)) :
    xs.findSome? (fun x => if p x then g x else none) = some b := by
  induction xs with
  | nil => cases found
  | cons x rest ih =>
    by_cases holds : p x
    · simp only [List.findSome?_cons, if_pos holds, Option.some.injEq] at found
      simp [holds, found]
    · simp only [List.findSome?_cons, if_neg holds] at found ⊢
      exact ih found

/-- The last `tx` scanned is the one the payment keeps. -/
theorem shapedBody_handed (ms : List (String × Value)) {sentAsArray : Bool}
    (told : sentAsArray = (ms.reverse.findSome? (fun m => if m.1 = "payment" then arrayTx m.2 else none)).getD false) :
    shapedBody sentAsArray (.object (modifyField "payment" bareTx (Value.collect ms))) =
      handed (.object (Value.collect ms)) := by
  rw [shapedBody, handed]
  congr 1
  simp only [modifyField_eq, List.map_map]
  apply List.map_congr_left
  intro m member
  simp only [Function.comp_apply]
  by_cases named : m.1 = "payment"
  · simp only [named, if_true]
    congr 1
    refine shaped_bareTx (fun b known => ?_)
    have kept := Value.get_of_mem (Value.ordered_collect ms) member
    have found := map_get_collect "payment" arrayTx ms
    rw [← named, kept, Option.map_some, named, known] at found
    rw [told, findSome?_told found.symm]
    rfl
  · simp only [named, if_false]

/-- A value's text, with space around it, is read as the value handed on. -/
theorem readSendBody_derives {range : Range} {w seg w' : Text} {v : Value}
    (small : (w ++ (seg ++ w')).length ≤ sendBodyBytes) (space : Space w) (space' : Space w')
    (derived : Derives Value.builder range 127 (.value v) seg) :
    readSendBody range (w ++ (seg ++ w')) = .ok (handed v) := by
  have parsed : Value.fromSlice range (w ++ (seg ++ w')) = some v :=
    read_eq_some_iff.mpr ⟨w, seg, w', rfl, space, space', derived⟩
  obtain ⟨b, more, text, plain⟩ := derived.head
  simp only [isSyntax, Bool.or_eq_false_iff] at plain
  have started : skipWs (w ++ (seg ++ w')) = seg ++ w' := by
    rw [skipWs_eq, text]
    exact skipSpace_append space plain.1.1.1.1 (more ++ w')
  rw [readSendBody, if_neg (Nat.not_lt.mpr small), txSpans, started]
  by_cases opens : seg.head? = some openObject
  · obtain ⟨ms, rfl, new, derived', rewrites, last⟩ := edits_object derived opens txOf
      (fun m => if m.1 = "payment" then bareTx m.2 else m.2)
      (fun m => if m.1 = "payment" then arrayTx m.2 else none) edits_payment
    rw [collect_modifyField] at derived'
    have inside := rewrites.within [] w' (fun span none' => by cases none')
    have written := rewrites.writes [] w' (fun span none' => by cases none')
    have untouched := rewrites.plain w'
    have told := last w'
    have whole : Value.fromSlice range (w ++ (new ++ w')) =
        some (.object (modifyField "payment" bareTx (Value.collect ms))) :=
      read_eq_some_iff.mpr ⟨w, new, w', rfl, space, space', derived'⟩
    rw [List.append_nil] at inside written
    simp only at told untouched
    generalize (members (seg ++ w')).1.flatMap txOf = spans at inside written untouched told
    have flag : spans.getLast?.any isArraySpan = (spans.getLast?.map isArraySpan).getD false := by
      cases spans.getLast? <;> rfl
    rw [told] at flag
    have shaped := shapedBody_handed ms flag
    by_cases array : spans.any isArraySpan = true
    · have text' : rewritten spans (w ++ (seg ++ w')) = w ++ (new ++ w') := by
        rw [rewritten_append inside, written]
        rfl
      rw [if_pos array, text', whole, ← shaped]
    · have none' := Bool.eq_false_iff.mpr array
      have plainLast : spans.getLast?.any isArraySpan = false := by
        rw [Option.any_eq_false]
        intro span member
        exact List.any_eq_false.mp none' span (List.mem_of_getLast? member) |> Bool.eq_false_iff.mpr
      rw [plainLast] at shaped
      rw [if_neg array, ← untouched none', whole, ← shaped]
  · have unread : (members (seg ++ w')).1 = [] := by
      rw [text, List.cons_append, members, if_neg (fun brace => opens (by rw [text, brace]; rfl))]
    have other : shapedBody false v = handed v := by
      cases v with
      | object fields => exact absurd (opens_object derived) opens
      | null | bool | number | string | array => rfl
    simp only [unread, List.flatMap_nil, List.any_nil, Bool.false_eq_true, if_false, parsed, other]

/-- A body read through its text is the body its text says, with the payment's `tx` as it is handed on. -/
theorem sendBody_handed {range : Range} {raw : Text} {v : Value} (small : raw.length ≤ sendBodyBytes)
    (parsed : Value.fromSlice range raw = some v) : readSendBody range raw = .ok (handed v) := by
  obtain ⟨w, seg, w', rfl, space, space', derived⟩ := read_eq_some_iff.mp parsed
  exact readSendBody_derives small space space' derived

def twoByteBody : Value := .object [("payment", .object [("tx", .array [.number "1", .number "255"])])]

theorem twoByteBody_handed : readSendBody everyNumber (utf8Bytes twoByteBody.text) =
    .ok (.object [("payment", .object [("tx", .string "01ff"), ("txShape", .string "array")])]) := by
  have one (n : Nat) (small : n < 2 ^ 64) : Value.Writable everyNumber 124 (.number (toString n)) :=
    .natural everyNumber small
  have items : ∀ item ∈ [Value.number "1", .number "255"], Value.Writable everyNumber 124 item := by
    intro item member
    simp only [List.mem_cons, List.not_mem_nil, or_false] at member
    rcases member with rfl | rfl
    · exact one 1 (by decide)
    · exact one 255 (by decide)
  have payment : Value.Writable everyNumber 126 (.object [("tx", .array [.number "1", .number "255"])]) :=
    .object (List.pairwise_singleton ..) (List.forall_mem_singleton.mpr (.array items))
  have writable : Value.Writable everyNumber 127 twoByteBody :=
    .object (List.pairwise_singleton ..) (List.forall_mem_singleton.mpr payment)
  exact sendBody_handed (by decide) (Value.fromSlice_text writable)

end MessageRelay.Send
