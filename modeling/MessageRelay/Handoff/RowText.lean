import MessageRelay.Handoff.ServeText

/-! The text of a row with a member set in its payment: it is the row's text, cut where the member stands. A mark that
the row's text does not hold is found there and nowhere before. -/

namespace MessageRelay.Handoff
open MessageRelay.Lane MessageRelay.Library MessageRelay.Library.Json MessageRelay.Session MessageRelay.Payments
open MessageRelay.Send

theorem prefix_before {pattern : Text} (front : Text) {rest : Text} {c : UInt8}
    (begins : pattern <+: front ++ c :: rest) (other : c ∉ pattern) : pattern <+: front := by
  rcases List.prefix_or_prefix_of_prefix begins (List.prefix_append front (c :: rest)) with inside | past
  · exact inside
  · obtain ⟨more, rfl⟩ := past
    rw [List.prefix_append_right_inj] at begins
    cases more with
    | nil => exact (List.append_nil front).symm ▸ List.prefix_rfl
    | cons d later =>
      have same := (List.cons_prefix_cons.mp begins).1
      exact absurd (List.mem_append_right front (same ▸ List.mem_cons_self)) other

/-- No place is found before a byte the pattern does not have, where what stands before it does not hold the pattern. -/
theorem replaceFirst_past {pattern new front rest : Text} {c : UInt8} (some' : pattern ≠ [])
    (absent : ¬ pattern <:+: front) (other : c ∉ pattern) :
    replaceFirst pattern new (front ++ c :: rest) = front ++ c :: replaceFirst pattern new rest := by
  induction front with
  | nil =>
    have apart : ¬ pattern <+: c :: rest := by
      intro begins
      have empty := prefix_before [] begins other
      exact some' (List.prefix_nil.mp empty)
    rw [List.nil_append, replaceFirst, if_neg (by simpa using apart)]
    rfl
  | cons b more ih =>
    have apart : ¬ pattern <+: b :: (more ++ c :: rest) := fun begins =>
      absent (prefix_before (b :: more) begins other).isInfix
    rw [List.cons_append, replaceFirst, if_neg (by simpa using apart),
      ih (fun inside => absent (inside.trans (List.suffix_cons b more).isInfix))]
    rfl

theorem replaceFirst_here {pattern : Text} (some' : pattern ≠ []) (new rest : Text) :
    replaceFirst pattern new (pattern ++ rest) = new ++ rest := by
  obtain ⟨b, more, rfl⟩ := List.exists_cons_of_ne_nil some'
  rw [List.cons_append, replaceFirst, if_pos (by simp), ← List.cons_append, List.drop_left]

def fieldsText (fields : List (String × Value)) : Text := utf8Bytes (Value.textFields fields)

def fieldText (name : String) (text : Text) : Text := quotedText name ++ colon :: text

theorem textField_eq (f : String × Value) : utf8Bytes (Value.textField f) = fieldText f.1 (valueText f.2) := by
  rw [Value.textField, utf8Bytes_append, utf8Bytes_append, Value.utf8Bytes_quoted, List.append_assoc]
  rfl

theorem fieldsText_one (f : String × Value) : fieldsText [f] = fieldText f.1 (valueText f.2) := by
  rw [← textField_eq]
  simp [fieldsText, Value.textFields]

theorem fieldsText_cons (f : String × Value) {rest : List (String × Value)} (some' : rest ≠ []) :
    fieldsText (f :: rest) = fieldText f.1 (valueText f.2) ++ comma :: fieldsText rest := by
  obtain ⟨g, more, rfl⟩ := List.exists_cons_of_ne_nil some'
  rw [fieldsText, Value.textFields, utf8Bytes_append, utf8Bytes_append, textField_eq, List.append_assoc]
  rfl

theorem valueText_object (fields : List (String × Value)) :
    valueText (.object fields) = openObject :: (fieldsText fields ++ [closeObject]) := by
  rw [valueText, Value.text, utf8Bytes_append, utf8Bytes_append, List.append_assoc]
  rfl

theorem insertField_ne_nil (name : String) (v : Value) (fields : List (String × Value)) :
    Value.insertField name v fields ≠ [] := by
  cases fields with
  | nil => exact List.cons_ne_nil _ _
  | cons f rest =>
    rw [Value.insertField]
    split
    · exact List.cons_ne_nil _ _
    · split <;> exact List.cons_ne_nil _ _

/-- The members' text, cut where one stands that is set: at the front, or behind a comma. -/
theorem fieldsText_insert (name : String) (fields : List (String × Value)) :
    (∃ back, back.length ≤ (fieldsText fields).length + (if fields = [] then 0 else 1) ∧
      ∀ v, fieldsText (Value.insertField name v fields) = fieldText name (valueText v) ++ back) ∨
    ∃ front back, front <+: fieldsText fields ∧ front.length + back.length ≤ (fieldsText fields).length ∧
      ∀ v, fieldsText (Value.insertField name v fields) = front ++ comma :: (fieldText name (valueText v) ++ back) := by
  induction fields with
  | nil => exact .inl ⟨[], Nat.zero_le _, fun v => (fieldsText_one (name, v)).trans (List.append_nil _).symm⟩
  | cons f rest ih =>
    by_cases same : f.1 = name
    · left
      by_cases last : rest = []
      · subst last
        refine ⟨[], Nat.zero_le _, fun v => ?_⟩
        rw [Value.insertField, if_pos same, fieldsText_one, List.append_nil]
      · refine ⟨comma :: fieldsText rest, ?_, fun v => ?_⟩
        · rw [fieldsText_cons f last, List.length_append, List.length_cons]
          omega
        · rw [Value.insertField, if_pos same, fieldsText_cons _ last]
    · by_cases before : name < f.1
      · left
        refine ⟨comma :: fieldsText (f :: rest), by simp, fun v => ?_⟩
        rw [Value.insertField, if_neg same, if_pos before, fieldsText_cons _ (List.cons_ne_nil f rest)]
      · have step (v : Value) : fieldsText (Value.insertField name v (f :: rest)) =
            fieldText f.1 (valueText f.2) ++ comma :: fieldsText (Value.insertField name v rest) := by
          rw [Value.insertField, if_neg same, if_neg before, fieldsText_cons f (insertField_ne_nil name v rest)]
        right
        by_cases last : rest = []
        · subst last
          refine ⟨fieldText f.1 (valueText f.2), [], (fieldsText_one f).symm ▸ List.prefix_rfl, ?_, fun v => ?_⟩
          · rw [fieldsText_one]
            rfl
          · rw [step, Value.insertField, fieldsText_one, List.append_nil]
        · rcases ih with ⟨back, short, cut⟩ | ⟨front, back, inside, short, cut⟩
          · refine ⟨fieldText f.1 (valueText f.2), back, ?_, ?_, fun v => ?_⟩
            · rw [fieldsText_cons f last]
              exact List.prefix_append ..
            · rw [if_neg last] at short
              rw [fieldsText_cons f last, List.length_append, List.length_cons]
              omega
            · rw [step, cut]
          · refine ⟨fieldText f.1 (valueText f.2) ++ comma :: front, back, ?_, ?_, fun v => ?_⟩
            · rw [fieldsText_cons f last, List.prefix_append_right_inj, List.cons_prefix_cons]
              exact ⟨rfl, inside⟩
            · rw [fieldsText_cons f last, List.length_append, List.length_append, List.length_cons, List.length_cons]
              omega
            · rw [step, cut]
              simp

/-- An object's text, cut where a member stands that is set. -/
theorem valueText_insert (name : String) (fields : List (String × Value)) :
    ∃ front c back, (c = comma ∨ c = openObject) ∧ front <+: valueText (.object fields) ∧
      front.length + back.length ≤ (valueText (.object fields)).length ∧
      ∀ v, valueText (.object (Value.insertField name v fields)) = front ++ c :: (fieldText name (valueText v) ++ back) := by
  rcases fieldsText_insert name fields with ⟨back, short, cut⟩ | ⟨front, back, inside, short, cut⟩
  · refine ⟨[], openObject, back ++ [closeObject], .inr rfl, List.nil_prefix, ?_, fun v => ?_⟩
    · have one : (if fields = [] then 0 else 1) ≤ 1 := by split <;> decide
      rw [valueText_object, List.length_cons, List.length_append, List.length_append, List.length_nil]
      omega
    · rw [valueText_object, cut, List.nil_append, List.append_assoc]
  · refine ⟨openObject :: front, comma, back ++ [closeObject], .inl rfl, ?_, ?_, fun v => ?_⟩
    · rw [valueText_object, List.cons_prefix_cons]
      exact ⟨rfl, inside.trans (List.prefix_append ..)⟩
    · rw [valueText_object, List.length_cons, List.length_cons, List.length_append, List.length_append]
      omega
    · rw [valueText_object, cut]
      simp

theorem fieldText_infix {f : String × Value} {fields : List (String × Value)} (member : f ∈ fields) :
    fieldText f.1 (valueText f.2) <:+: fieldsText fields := by
  induction fields with
  | nil => cases member
  | cons g rest ih =>
    by_cases last : rest = []
    · subst last
      rw [List.mem_singleton.mp member, fieldsText_one]
    · rw [fieldsText_cons g last]
      rcases List.mem_cons.mp member with rfl | later
      · exact (List.prefix_append _ _).isInfix
      · exact (ih later).trans ((List.suffix_cons comma _).trans (List.suffix_append ..)).isInfix

/-- A row that carries a payment. -/
def paidRow (message payment : Value) : Value := .object [("message", message), ("payment", payment)]

/-- The payment with a recipient's outputs. -/
def withOutputs (outputs : Value) : Value → Value
  | .object fields => .object (Value.insertField "outputs" outputs fields)
  | other => other

/-- A row as a value. -/
def storedRow (message : Value) : Option (Value × Value) → Value
  | some (payment, outputs) => paidRow message (withOutputs outputs payment)
  | none => .object [("message", message)]

theorem storedBody_eq (message : Value) (paid : Option (Value × Value)) :
    utf8Bytes (storedBody message paid) = valueText (storedRow message paid) := by
  cases paid with
  | none => rfl
  | some paid =>
    obtain ⟨payment, outputs⟩ := paid
    cases payment <;> rfl

def rowFront (message : Value) : Text :=
  openObject :: (fieldText "message" (valueText message) ++ comma :: (quotedText "payment" ++ [colon]))

theorem valueText_paidRow (message payment : Value) :
    valueText (paidRow message payment) = rowFront message ++ (valueText payment ++ [closeObject]) := by
  rw [paidRow, valueText_object, fieldsText_cons _ (List.cons_ne_nil _ _), fieldsText_one, rowFront]
  simp [fieldText]

theorem setPayment_paidRow (name : String) (v message : Value) (fields : List (String × Value)) :
    setPayment name v (paidRow message (.object fields)) = paidRow message (.object (Value.insertField name v fields)) := by
  simp [setPayment, paidRow, modifyField]

/-- A row's text, cut where a member of its payment stands that is set. -/
theorem row_insert (name : String) (message : Value) (fields : List (String × Value)) :
    ∃ front c back, (c = comma ∨ c = openObject) ∧ front <+: valueText (paidRow message (.object fields)) ∧
      front.length + back.length ≤ (valueText (paidRow message (.object fields))).length ∧
      ∀ v, valueText (paidRow message (.object (Value.insertField name v fields))) =
        front ++ c :: (fieldText name (valueText v) ++ back) := by
  obtain ⟨front, c, back, mark, inside, short, cut⟩ := valueText_insert name fields
  refine ⟨rowFront message ++ front, c, back ++ [closeObject], mark, ?_, ?_, fun v => ?_⟩
  · rw [valueText_paidRow, List.prefix_append_right_inj]
    exact inside.trans (List.prefix_append ..)
  · rw [valueText_paidRow]
    simp only [List.length_append, List.length_cons, List.length_nil]
    omega
  · rw [valueText_paidRow, cut]
    simp

theorem mark_text : (utf8Bytes "rmb-tx-").all (fun b => b ≠ comma && b ≠ colon && b ≠ openObject) = true ∧
    "rmb-tx-".toList.all isPlain = true ∧ (utf8Bytes "rmb-tx-").length = 7 ∧ (quotedText "tx").length = 4 := by decide

theorem mark_bytes (uuid : Bytes) : ∀ b ∈ utf8Bytes (mark uuid), b ≠ comma ∧ b ≠ colon ∧ b ≠ openObject := by
  have digit : ∀ n < 16, UInt8.ofNat (hexOfNibble n).toNat ≠ comma ∧ UInt8.ofNat (hexOfNibble n).toNat ≠ colon ∧
      UInt8.ofNat (hexOfNibble n).toNat ≠ openObject := by decide
  intro b member
  rw [mark, utf8Bytes_append, List.mem_append] at member
  rcases member with early | late
  · have known := List.all_eq_true.mp mark_text.1 b early
    simpa [and_assoc] using known
  · rw [utf8Bytes_hexEncode, hexEncode, String.toList_ofList] at late
    simp only [List.mem_map, List.mem_flatMap, List.mem_cons, List.not_mem_nil, or_false] at late
    obtain ⟨_, ⟨byte, -, rfl | rfl⟩, rfl⟩ := late
    · exact digit _ (Nat.div_lt_of_lt_mul byte.toNat_lt)
    · exact digit _ (Nat.mod_lt _ (by decide))

theorem valueText_mark (uuid : Bytes) :
    valueText (.string (mark uuid)) = quote :: (utf8Bytes (mark uuid) ++ [quote]) := by
  have plain : ∀ c ∈ (mark uuid).toList, isPlain c = true := by
    intro c member
    rw [mark, String.toList_append, List.mem_append] at member
    rcases member with early | late
    · exact List.all_eq_true.mp mark_text.2.1 c early
    · exact hexEncode_plain uuid c late
  rw [valueText, Value.text, Value.utf8Bytes_quoted, quotedText_plain plain]

/-- The text goes in where the mark stands. -/
theorem marked_replaced {uuid : Bytes} {message : Value} {fields : List (String × Value)}
    (fresh : ¬ utf8Bytes (mark uuid) <:+: valueText (paidRow message (.object fields))) (w : Value) :
    replaceFirst (quote :: (utf8Bytes (mark uuid) ++ [quote])) (valueText w)
        (valueText (paidRow message (.object (Value.insertField "tx" (.string (mark uuid)) fields)))) =
      valueText (paidRow message (.object (Value.insertField "tx" w fields))) := by
  obtain ⟨front, c, back, marks, inside, -, cut⟩ := row_insert "tx" message fields
  have held : utf8Bytes (mark uuid) <:+: quote :: (utf8Bytes (mark uuid) ++ [quote]) := ⟨[quote], [quote], by simp⟩
  have absent : ¬ (quote :: (utf8Bytes (mark uuid) ++ [quote])) <:+: front := fun found =>
    fresh ((held.trans found).trans inside.isInfix)
  have apart (d : UInt8) (quotes : d ≠ quote) (bytes : d ∉ utf8Bytes (mark uuid)) :
      d ∉ quote :: (utf8Bytes (mark uuid) ++ [quote]) := by simp [quotes, bytes]
  have other : c ∉ quote :: (utf8Bytes (mark uuid) ++ [quote]) := by
    rcases marks with rfl | rfl
    · exact apart _ (by decide) (fun member => (mark_bytes uuid _ member).1 rfl)
    · exact apart _ (by decide) (fun member => (mark_bytes uuid _ member).2.2 rfl)
  have colon' := apart colon (by decide) (fun member => (mark_bytes uuid _ member).2.1 rfl)
  have long : 7 ≤ (utf8Bytes (mark uuid)).length := by
    rw [mark, utf8Bytes_append, List.length_append, mark_text.2.2.1]
    exact Nat.le_add_right ..
  have short : ¬ (quote :: (utf8Bytes (mark uuid) ++ [quote])) <:+: quotedText "tx" := by
    intro found
    have bound := found.length_le
    simp only [List.length_cons, List.length_append, mark_text.2.2.2] at bound
    omega
  rw [cut, cut, valueText_mark, fieldText, fieldText, replaceFirst_past (List.cons_ne_nil _ _) absent other,
    List.append_assoc, List.cons_append, replaceFirst_past (List.cons_ne_nil _ _) short colon',
    replaceFirst_here (List.cons_ne_nil _ _)]
  simp

/-- A row whose payment has a member holds the member's text. -/
theorem row_holds {fields : List (String × Value)} {name : String} {v : Value}
    (held : (Value.object fields).get name = some v) (message : Value) :
    fieldText name (valueText v) <:+: valueText (paidRow message (.object fields)) := by
  rw [Value.get, Option.map_eq_some_iff] at held
  obtain ⟨f, found, rfl⟩ := held
  have named : f.1 = name := by simpa using List.find?_some found
  have inside := fieldText_infix (List.mem_of_find?_eq_some found)
  rw [named] at inside
  rw [valueText_paidRow, valueText_object]
  refine inside.trans ⟨rowFront message ++ [openObject], [closeObject] ++ [closeObject], ?_⟩
  simp

end MessageRelay.Handoff
