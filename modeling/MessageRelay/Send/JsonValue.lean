import MessageRelay.Library.JsonPrint
import MessageRelay.Send.StoreRows

/-! Values read from JSON text and written to it, as serde_json reads and writes them: of members that share a name the
last is kept, and members stand in the order of their names. A number is the text it is printed with, which need not be
the one it was read from. -/

namespace MessageRelay.Session.Value
open MessageRelay.Library.Json

/-- The members an object keeps of those its text has. -/
def collect (members : List (String × Value)) : List (String × Value) :=
  members.foldl (fun fields m => insertField m.1 m.2 fields) []

def builder : Builder Value :=
  { null := .null, bool := .bool, number := .number, string := .string, array := .array
    object := fun members => .object (collect members) }

theorem find?_insertField (name : String) (value : Value) (fields : List (String × Value)) (k : String) :
    (insertField name value fields).find? (fun f => f.1 == k) =
      if name = k then some (name, value) else fields.find? (fun f => f.1 == k) := by
  induction fields with
  | nil => by_cases same : name = k <;> simp [insertField, same]
  | cons f rest ih =>
    rw [insertField]
    split
    · next held => by_cases same : name = k <;> simp [held, same]
    · next other =>
      split
      · by_cases same : name = k <;> simp [same]
      · by_cases own : f.1 = k
        · have apart : name ≠ k := fun same => other (own.trans same.symm)
          simp [own, apart]
        · simp [own, ih]

/-- Of the members that share a name the last is found. -/
theorem get_collect (members : List (String × Value)) (k : String) :
    (object (collect members)).get k = (members.reverse.find? (fun f => f.1 == k)).map Prod.snd := by
  rw [get]
  congr 1
  induction members using List.reverseRecOn with
  | nil => rfl
  | append_singleton front m ih =>
    rw [collect, List.foldl_append, List.reverse_append]
    change (insertField m.1 m.2 (collect front)).find? _ = _
    rw [find?_insertField, ih]
    by_cases same : m.1 = k
    · subst same
      simp
    · simp [same]

theorem mem_insertField {name : String} {value : Value} {fields : List (String × Value)} {m : String × Value}
    (member : m ∈ insertField name value fields) : m = (name, value) ∨ m ∈ fields := by
  induction fields with
  | nil => exact .inl (List.mem_singleton.mp member)
  | cons f rest ih =>
    rw [insertField] at member
    split at member
    · rcases List.mem_cons.mp member with own | later
      · exact .inl own
      · exact .inr (List.mem_cons_of_mem _ later)
    · split at member
      · exact List.mem_cons.mp member
      · rcases List.mem_cons.mp member with rfl | later
        · exact .inr List.mem_cons_self
        · exact (ih later).imp_right (List.mem_cons_of_mem _)

theorem insertField_ordered (name : String) (value : Value) {fields : List (String × Value)}
    (ordered : fields.Pairwise (fun f g => f.1 < g.1)) :
    (insertField name value fields).Pairwise (fun f g => f.1 < g.1) := by
  induction fields with
  | nil => exact List.pairwise_singleton ..
  | cons f rest ih =>
    obtain ⟨first, later⟩ := List.pairwise_cons.mp ordered
    rw [insertField]
    split
    · next same => exact List.pairwise_cons.mpr ⟨fun g member => same ▸ first g member, later⟩
    · next other =>
      split
      · next below =>
        refine List.pairwise_cons.mpr ⟨fun g member => ?_, ordered⟩
        rcases List.mem_cons.mp member with rfl | more
        · exact below
        · exact below.trans (first g more)
      · next above =>
        refine List.pairwise_cons.mpr ⟨fun g member => ?_, ih later⟩
        rcases mem_insertField member with rfl | more
        · exact lt_of_le_of_ne (le_of_not_gt above) other
        · exact first g more

theorem ordered_collect (ms : List (String × Value)) : (collect ms).Pairwise (fun f g => f.1 < g.1) := by
  induction ms using List.reverseRecOn with
  | nil => exact .nil
  | append_singleton front m ih =>
    rw [collect, List.foldl_append]
    exact insertField_ordered m.1 m.2 ih

/-- A member of an object is the one its name finds. -/
theorem get_of_mem {fields : List (String × Value)} (ordered : fields.Pairwise (fun f g => f.1 < g.1))
    {m : String × Value} (member : m ∈ fields) : (object fields).get m.1 = some m.2 := by
  induction fields with
  | nil => cases member
  | cons f rest ih =>
    obtain ⟨first, later⟩ := List.pairwise_cons.mp ordered
    rcases List.mem_cons.mp member with rfl | more
    · simp [get]
    · have apart : f.1 ≠ m.1 := (first m more).ne
      have tail := ih later more
      rw [get] at tail ⊢
      simpa [List.find?_cons, apart] using tail

theorem insertField_map (h : String → Value → Value) (name : String) (value : Value) (fields : List (String × Value)) :
    insertField name (h name value) (fields.map (fun m => (m.1, h m.1 m.2))) =
      (insertField name value fields).map (fun m => (m.1, h m.1 m.2)) := by
  induction fields with
  | nil => rfl
  | cons f rest ih =>
    rw [List.map_cons, insertField, insertField, ih]
    split
    · rfl
    · split <;> rfl

theorem collect_map (h : String → Value → Value) (ms : List (String × Value)) :
    collect (ms.map (fun m => (m.1, h m.1 m.2))) = (collect ms).map (fun m => (m.1, h m.1 m.2)) := by
  induction ms using List.reverseRecOn with
  | nil => rfl
  | append_singleton front m ih =>
    rw [List.map_append, collect, List.foldl_append, collect, List.foldl_append]
    change insertField m.1 (h m.1 m.2) (collect _) = (insertField m.1 m.2 (collect front)).map _
    rw [ih, insertField_map]

theorem mem_collect {ms : List (String × Value)} {m : String × Value} (member : m ∈ collect ms) : m ∈ ms := by
  induction ms using List.reverseRecOn with
  | nil => cases member
  | append_singleton front last ih =>
    rw [collect, List.foldl_append] at member
    rcases mem_insertField member with rfl | early
    · exact List.mem_append_right front List.mem_cons_self
    · exact List.mem_append_left _ (ih early)

theorem get_insertField (name : String) (value : Value) (fields : List (String × Value)) (k : String) :
    (object (insertField name value fields)).get k = if name = k then some value else (object fields).get k := by
  rw [get, find?_insertField]
  split <;> rfl

/-- `serde_json::from_slice`: what nests 128 deep is refused. -/
def fromSlice (range : Range) (text : Text) : Option Value := read builder range 127 text

mutual

/-- The value with its numbers written another way. -/
def renumber (f : String → String) : Value → Value
  | .null => .null
  | .bool b => .bool b
  | .number digits => .number (f digits)
  | .string s => .string s
  | .array items => .array (renumberItems f items)
  | .object fields => .object (renumberFields f fields)

def renumberItems (f : String → String) : List Value → List Value
  | [] => []
  | item :: rest => renumber f item :: renumberItems f rest

def renumberFields (f : String → String) : List (String × Value) → List (String × Value)
  | [] => []
  | field :: rest => renumberField f field :: renumberFields f rest

def renumberField (f : String → String) : String × Value → String × Value
  | (name, value) => (name, renumber f value)

end

mutual

/-- The texts of a value's numbers, in order. -/
def numbers : Value → List String
  | .number digits => [digits]
  | .array items => numbersItems items
  | .object fields => numbersFields fields
  | .null | .bool _ | .string _ => []

def numbersItems : List Value → List String
  | [] => []
  | item :: rest => numbers item ++ numbersItems rest

def numbersFields : List (String × Value) → List String
  | [] => []
  | field :: rest => numbersField field ++ numbersFields rest

def numbersField : String × Value → List String
  | (_, value) => numbers value

end

theorem numbers_array (items : List Value) : (array items).numbers = items.flatMap numbers := by
  rw [numbers]
  induction items with
  | nil => rfl
  | cons item rest ih => exact congrArg (item.numbers ++ ·) ih

theorem numbers_object (fields : List (String × Value)) :
    (object fields).numbers = fields.flatMap (fun m => m.2.numbers) := by
  rw [numbers]
  induction fields with
  | nil => rfl
  | cons m rest ih =>
    obtain ⟨name, value⟩ := m
    exact congrArg (value.numbers ++ ·) ih

theorem renumber_array (f : String → String) (items : List Value) :
    (array items).renumber f = .array (items.map (renumber f)) := by
  rw [renumber]
  congr 1
  induction items with
  | nil => rfl
  | cons item rest ih => exact congrArg (item.renumber f :: ·) ih

theorem renumber_object (f : String → String) (fields : List (String × Value)) :
    (object fields).renumber f = .object (fields.map (fun m => (m.1, m.2.renumber f))) := by
  rw [renumber]
  congr 1
  induction fields with
  | nil => rfl
  | cons m rest ih =>
    obtain ⟨name, value⟩ := m
    exact congrArg ((name, value.renumber f) :: ·) ih

theorem get_renumber (f : String → String) (v : Value) (k : String) :
    (v.renumber f).get k = (v.get k).map (renumber f) := by
  cases v with
  | object fields =>
    rw [renumber_object, get, get, List.find?_map]
    change Option.map _ (Option.map _ (fields.find? fun m => m.1 == k)) = _
    cases fields.find? (fun m => m.1 == k) <;> rfl
  | array items => rfl
  | null | bool | number | string => rfl

/-- What one reader makes of a text, from what it says. -/
theorem renumber_onto (f : String → String) : builder.Onto builder (renumber f) where
  null := rfl
  bool _ := rfl
  string _ := rfl
  array items := renumber_array f items
  object ms := by
    change (object (collect ms)).renumber f = .object (collect _)
    rw [renumber_object, collect_map (fun _ v => v.renumber f)]

/-- A value in form: its numbers are numbers' texts of a kind, its members in order, its nesting bounded. -/
inductive Formed (p : String → Prop) : Nat → Value → Prop
  | null {n : Nat} : Formed p n .null
  | bool {n : Nat} {b : Bool} : Formed p n (.bool b)
  | number {n : Nat} {digits : String} (number : isNumber (utf8Bytes digits) = true) (kind : p digits) :
      Formed p n (.number digits)
  | string {n : Nat} {s : String} : Formed p n (.string s)
  | array {n : Nat} {items : List Value} (inside : ∀ item ∈ items, Formed p n item) : Formed p (n + 1) (.array items)
  | object {n : Nat} {fields : List (String × Value)} (ordered : fields.Pairwise (fun f g => f.1 < g.1))
      (inside : ∀ f ∈ fields, Formed p n f.2) : Formed p (n + 1) (.object fields)

/-- The text reads: its numbers are held. -/
abbrev Readable (range : Range) : Nat → Value → Prop := Formed (fun digits => range.holds (utf8Bytes digits) = true)

/-- A value as its own text reads: each number as it is printed again. -/
abbrev reread (range : Range) (v : Value) : Value := v.renumber range.reprint

/-- The text reads back as the value: its numbers are held, and printed as they stand. -/
abbrev Writable (range : Range) : Nat → Value → Prop :=
  Formed (fun digits => range.holds (utf8Bytes digits) = true ∧ range.reprint digits = digits)

section
variable {p q : String → Prop} {f g : String → String} {n : Nat} {v : Value}

theorem Formed.mono (formed : Formed p n v)
    (kind : ∀ digits, isNumber (utf8Bytes digits) = true → p digits → q digits) : Formed q n v := by
  induction formed with
  | null => exact .null
  | bool => exact .bool
  | number number held => exact .number number (kind _ number held)
  | string => exact .string
  | array _ ih => exact .array ih
  | object ordered _ ih => exact .object ordered ih

/-- What stands in a value in form is in form. -/
theorem Formed.get (formed : Formed p (n + 1) v) {name : String} {inside : Value} (held : v.get name = some inside) :
    Formed p n inside := by
  cases formed with
  | object _ each =>
    rw [Value.get, Option.map_eq_some_iff] at held
    obtain ⟨f, found, rfl⟩ := held
    exact each f (List.mem_of_find?_eq_some found)
  | null | bool | number | string | array => cases held

theorem Formed.renumber (formed : Formed p n v)
    (kind : ∀ digits, isNumber (utf8Bytes digits) = true → p digits →
      isNumber (utf8Bytes (f digits)) = true ∧ q (f digits)) :
    Formed q n (v.renumber f) := by
  induction formed with
  | null => exact .null
  | bool => exact .bool
  | number number held => exact .number (kind _ number held).1 (kind _ number held).2
  | string => exact .string
  | array _ ih =>
    rw [renumber_array]
    exact .array (List.forall_mem_map.mpr ih)
  | object ordered _ ih =>
    rw [renumber_object]
    exact .object (List.pairwise_map.mpr ordered) (List.forall_mem_map.mpr ih)

theorem Formed.numbers (formed : Formed p n v) : ∀ digits ∈ v.numbers, p digits := by
  induction formed with
  | null | bool | string => exact List.forall_mem_nil _
  | number _ kind => exact List.forall_mem_singleton.mpr kind
  | array _ ih =>
    rw [numbers_array]
    intro digits held
    obtain ⟨item, member, held⟩ := List.mem_flatMap.mp held
    exact ih item member digits held
  | object _ _ ih =>
    rw [numbers_object]
    intro digits held
    obtain ⟨m, member, held⟩ := List.mem_flatMap.mp held
    exact ih m member digits held

/-- Two ways of writing the numbers are one on a value whose numbers they write alike, and on no other. -/
theorem Formed.renumber_eq_iff (formed : Formed p n v) :
    v.renumber f = v.renumber g ↔ ∀ digits ∈ v.numbers, f digits = g digits := by
  induction formed with
  | null | bool | string => exact iff_of_true rfl (List.forall_mem_nil _)
  | @number _ digits => exact ⟨fun same => List.forall_mem_singleton.mpr (Value.number.inj same), fun same =>
      congrArg Value.number (same digits List.mem_cons_self)⟩
  | array _ ih =>
    rw [renumber_array, renumber_array, Value.array.injEq, List.map_inj_left, numbers_array, List.forall_mem_flatMap]
    exact forall₂_congr ih
  | object _ _ ih =>
    rw [renumber_object, renumber_object, Value.object.injEq, List.map_inj_left, numbers_object,
      List.forall_mem_flatMap]
    refine forall₂_congr (fun m member => ?_)
    rw [Prod.mk.injEq, ← ih m member]
    exact and_iff_right rfl

theorem Formed.renumber_renumber (formed : Formed p n v) :
    (v.renumber f).renumber g = v.renumber (fun digits => g (f digits)) := by
  induction formed with
  | null | bool | number | string => rfl
  | array _ ih =>
    rw [renumber_array, renumber_array, renumber_array, List.map_map]
    exact congrArg Value.array (List.map_congr_left ih)
  | object _ _ ih =>
    rw [renumber_object, renumber_object, renumber_object, List.map_map]
    exact congrArg Value.object (List.map_congr_left (fun m member => congrArg (m.1, ·) (ih m member)))

theorem Formed.renumber_id (formed : Formed p n v) : v.renumber (fun digits => digits) = v := by
  induction formed with
  | null | bool | number | string => rfl
  | array _ ih =>
    rw [renumber_array]
    exact congrArg Value.array ((List.map_congr_left ih).trans (List.map_id _))
  | object _ _ ih =>
    rw [renumber_object]
    have same := List.map_congr_left (fun m member => congrArg (m.1, ·) (ih m member))
    exact congrArg Value.object (same.trans (List.map_id _))

end

section
variable {range : Range} {n : Nat} {v : Value}

theorem reread_object (range : Range) (fields : List (String × Value)) :
    (object fields).reread range = .object (fields.map (fun m => (m.1, m.2.reread range))) := renumber_object ..

theorem get_reread (range : Range) (v : Value) (k : String) : (v.reread range).get k = (v.get k).map (reread range) :=
  get_renumber ..

theorem utf8Bytes_reprint {digits : String} (number : isNumber (utf8Bytes digits) = true)
    (held : range.holds (utf8Bytes digits) = true) :
    utf8Bytes (range.reprint digits) = range.printed (utf8Bytes digits) :=
  utf8Bytes_numberText (fun b member => isNumeric_ascii (isNumber_numeric (range.prints _ number held).1 b member))

/-- What is read can be read again. -/
theorem Readable.reread (readable : Readable range n v) : Readable range n (v.reread range) := by
  refine Formed.renumber readable (fun digits number held => ?_)
  rw [utf8Bytes_reprint number held]
  exact range.prints _ number held

theorem Writable.readable (writable : Writable range n v) : Readable range n v := writable.mono (fun _ _ kind => kind.1)

theorem Writable.reread (writable : Writable range n v) : v.reread range = v :=
  (writable.renumber_eq_iff.mpr (fun digits held => (writable.numbers digits held).2)).trans writable.renumber_id

/-- Where every number is held as it is written, a value's text reads back as the value. -/
theorem Formed.written {p : String → Prop} (formed : Formed p n v) : Writable everyNumber n v :=
  formed.mono (fun _ number _ => ⟨rfl, numberText_of_isNumber number⟩)

theorem Writable.natural (range : Range) {n : Nat} {k : Nat} (small : k < 2 ^ 64) :
    Writable range n (.number (toString k)) := by
  refine .number (isNumber_toString k) ⟨range.small k small, ?_⟩
  rw [Range.reprint, range.whole k small, numberText_toString]

end

theorem utf8Bytes_escaped (c : Char) : utf8Bytes (escaped c) = (String.utf8EncodeChar c).flatMap escapeByte := by
  by_cases ascii : c.toNat < 0x80
  · have low : ∀ n < 0x80, utf8Bytes (escaped (Char.ofNat n)) = escapeByte (UInt8.ofNat n) := by decide +kernel
    rw [utf8EncodeChar_ascii ascii, List.flatMap_singleton, ← low _ ascii, Char.ofNat_toNat]
  · have high := utf8EncodeChar_high (Nat.le_of_not_lt ascii)
    have plain : ∀ b ∈ String.utf8EncodeChar c, escapeByte b = [b] := by
      intro b member
      have bound := UInt8.le_iff_toNat_le.mp (high b member)
      have other (d : UInt8) (below : d.toNat < 0x80) : b ≠ d := by
        rintro rfl
        exact absurd (bound.trans_lt below) (by decide)
      rw [escapeByte, if_neg (other _ (by decide)), if_neg (other _ (by decide)), if_neg (other _ (by decide)),
        if_neg (other _ (by decide)), if_neg (other _ (by decide)),
        if_neg (not_or.mpr ⟨other _ (by decide), other _ (by decide)⟩), if_neg]
      rw [UInt8.lt_iff_toNat_lt, Nat.not_lt]
      exact le_trans (by decide) bound
    have same : escaped c = c.toString := by
      unfold escaped
      split <;> first | omega | exact if_neg (by omega)
    rw [same, show c.toString = String.ofList [c] from rfl, utf8Bytes_ofList, List.flatMap_singleton,
      List.flatMap_congr plain, List.flatMap_singleton']

theorem utf8Bytes_quoted (s : String) : utf8Bytes (quoted s) = quotedText s := by
  have joined (chars : List Char) : utf8Bytes (String.join (chars.map escaped)) =
      (chars.flatMap String.utf8EncodeChar).flatMap escapeByte := by
    induction chars with
    | nil => rfl
    | cons c rest ih =>
      rw [List.map_cons, String.join_cons, utf8Bytes_append, ih, utf8Bytes_escaped, List.flatMap_cons,
        List.flatMap_append]
  rw [quoted, utf8Bytes_append, utf8Bytes_append, joined, quotedText, utf8Bytes_toList s]
  rfl

theorem derives_items {range : Range} {n : Nat} {items : List Value}
    (inside : ∀ item ∈ items, Derives builder range n (.value (item.reread range)) (utf8Bytes item.text))
    (some' : items ≠ []) :
    Derives builder range n (.items (items.map (reread range))) (utf8Bytes (textItems items)) := by
  induction items with
  | nil => exact absurd rfl some'
  | cons item rest ih =>
    have first := inside item List.mem_cons_self
    cases rest with
    | nil =>
      have last := Derives.lastItem first space_nil
      simpa [textItems, utf8Bytes_append] using last
    | cons next later =>
      have tail := ih (fun item member => inside item (List.mem_cons_of_mem _ member)) (List.cons_ne_nil _ _)
      have all := Derives.item first space_nil space_nil tail
      rw [textItems, utf8Bytes_append, utf8Bytes_append, List.append_assoc]
      exact all

theorem derives_fields {range : Range} {n : Nat} {fields : List (String × Value)}
    (inside : ∀ f ∈ fields, Derives builder range n (.value (f.2.reread range)) (utf8Bytes f.2.text))
    (some' : fields ≠ []) :
    Derives builder range n (.members (fields.map (fun m => (m.1, m.2.reread range))))
      (utf8Bytes (textFields fields)) := by
  induction fields with
  | nil => exact absurd rfl some'
  | cons f rest ih =>
    have named : Derives builder range n (.member (f.1, f.2.reread range)) (utf8Bytes (textField f)) := by
      have quoted := quoted_quotedText f.1
      rw [← utf8Bytes_quoted] at quoted
      rw [textField, utf8Bytes_append, utf8Bytes_append, List.append_assoc]
      exact .member quoted space_nil space_nil (inside f List.mem_cons_self)
    cases rest with
    | nil =>
      have last := Derives.lastMember named space_nil
      simpa [textFields, utf8Bytes_append] using last
    | cons next later =>
      have tail := ih (fun f member => inside f (List.mem_cons_of_mem _ member)) (List.cons_ne_nil _ _)
      have all := Derives.members named space_nil space_nil tail
      rw [textFields, utf8Bytes_append, utf8Bytes_append, List.append_assoc]
      exact all

/-- The text of an object is derived as the members it keeps, in whatever order they are written. -/
theorem derives_object {range : Range} {n : Nat} {fields : List (String × Value)}
    (inside : ∀ f ∈ fields, Derives builder range n (.value (f.2.reread range)) (utf8Bytes f.2.text)) :
    Derives builder range (n + 1) (.value ((object (collect fields)).reread range))
      (utf8Bytes (Value.object fields).text) := by
  rw [reread_object, ← collect_map (fun _ v => v.reread range), text, utf8Bytes_append, utf8Bytes_append,
    List.append_assoc]
  by_cases empty : fields = []
  · subst empty
    exact .emptyObject space_nil
  · exact .object space_nil (derives_fields inside empty)

theorem insertField_last {name : String} {value : Value} {fields : List (String × Value)}
    (below : ∀ f ∈ fields, f.1 < name) : insertField name value fields = fields ++ [(name, value)] := by
  induction fields with
  | nil => rfl
  | cons f rest ih =>
    have first := below f List.mem_cons_self
    rw [insertField, if_neg first.ne, if_neg first.asymm, ih (fun g member => below g (List.mem_cons_of_mem _ member))]
    rfl

/-- Members in order are kept as they are. -/
theorem collect_of_ordered {fields : List (String × Value)} (ordered : fields.Pairwise (fun f g => f.1 < g.1)) :
    collect fields = fields := by
  induction fields using List.reverseRecOn with
  | nil => rfl
  | append_singleton front f ih =>
    obtain ⟨front', -, below⟩ := List.pairwise_append.mp ordered
    rw [collect, List.foldl_append]
    change insertField f.1 f.2 (collect front) = _
    rw [ih front', insertField_last (fun g member => below g member f List.mem_cons_self)]

/-- What the reader makes of a printed value: the value, each number as it is printed again. -/
theorem Readable.derives {range : Range} {n : Nat} {v : Value} (readable : Readable range n v) :
    Derives builder range n (.value (v.reread range)) (utf8Bytes v.text) := by
  induction readable with
  | null => exact .null
  | @bool _ b => cases b <;> exact .bool
  | number number held => exact .number number held
  | @string _ s =>
    rw [text, utf8Bytes_quoted]
    exact .string (quoted_quotedText s)
  | @array n items _ ih =>
    rw [Value.reread, renumber_array, text, utf8Bytes_append, utf8Bytes_append, List.append_assoc]
    by_cases empty : items = []
    · subst empty
      exact .emptyArray space_nil
    · exact .array space_nil (derives_items ih empty)
  | @object n fields ordered _ ih =>
    have whole := derives_object ih
    rwa [collect_of_ordered ordered] at whole

theorem Writable.derives {range : Range} {n : Nat} {v : Value} (writable : Writable range n v) :
    Derives builder range n (.value v) (utf8Bytes v.text) := by
  have derived := writable.readable.derives
  rwa [writable.reread] at derived

def ReadablePhrase (range : Range) (n : Nat) : Phrase Value → Prop
  | .value v => Readable range n v
  | .items vs => ∀ v ∈ vs, Readable range n v
  | .member m => Readable range n m.2
  | .members ms => ∀ m ∈ ms, Readable range n m.2

/-- What is read can be read again: it is nested no deeper, and its members are in order. -/
theorem readable_of_derives {range : Range} {n : Nat} {phrase : Phrase Value} {seg : Text}
    (derived : Derives builder range n phrase seg) : ReadablePhrase range n phrase := by
  induction derived with
  | null => exact .null
  | bool => exact .bool
  | @number n token number held =>
    obtain ⟨number', held'⟩ := range.prints token number held
    have back := utf8Bytes_numberText (fun b member => isNumeric_ascii (isNumber_numeric number' b member))
    exact .number (back.symm ▸ number') (back.symm ▸ held')
  | string => exact .string
  | emptyArray => exact .array (List.forall_mem_nil _)
  | array _ _ ih => exact .array ih
  | emptyObject => exact .object .nil (List.forall_mem_nil _)
  | object _ _ ih => exact .object (ordered_collect _) (fun f member => ih f (mem_collect member))
  | lastItem _ _ ih | lastMember _ _ ih => exact List.forall_mem_singleton.mpr ih
  | item _ _ _ _ ih ih' | members _ _ _ _ ih ih' => exact List.forall_mem_cons.mpr ⟨ih, ih'⟩
  | member _ _ _ _ ih => exact ih

theorem fromSlice_of_derives {range : Range} {seg : Text} {v : Value}
    (derived : Derives builder range 127 (.value v) seg) : fromSlice range seg = some v :=
  read_eq_some_iff.mpr ⟨[], seg, [], by simp, space_nil, space_nil, derived⟩

/-- What is printed reads as the value, each number as it is printed again. -/
theorem fromSlice_printed {range : Range} {v : Value} (readable : Readable range 127 v) :
    fromSlice range (utf8Bytes v.text) = some (v.reread range) := fromSlice_of_derives readable.derives

/-- What is written reads back. -/
theorem fromSlice_text {range : Range} {v : Value} (writable : Writable range 127 v) :
    fromSlice range (utf8Bytes v.text) = some v := fromSlice_of_derives writable.derives

/-- An object reads as the members it keeps, in whatever order they are written. -/
theorem fromSlice_members {range : Range} {fields : List (String × Value)}
    (inside : ∀ f ∈ fields, Writable range 126 f.2) :
    fromSlice range (utf8Bytes (object fields).text) = some (.object (collect fields)) := by
  have kept : Writable range 127 (.object (collect fields)) :=
    .object (ordered_collect fields) (fun f member => inside f (mem_collect member))
  have derived := derives_object (fun f member => (inside f member).readable.derives)
  rw [kept.reread] at derived
  exact fromSlice_of_derives derived

theorem readable_of_fromSlice {range : Range} {text : Text} {v : Value} (read : fromSlice range text = some v) :
    Readable range 127 v := by
  obtain ⟨-, seg, -, -, -, -, derived⟩ := read_eq_some_iff.mp read
  exact readable_of_derives derived

/-- What is read is what was written, each number as it is printed. -/
theorem fromSlice_written {range : Range} {text : Text} {v written : Value} (read : fromSlice range text = some v)
    (reads : fromSlice everyNumber text = some written) : written.reread range = v := by
  obtain ⟨w, seg, w', parted, space, space', derived⟩ := read_eq_some_iff.mp read
  have numbers (token : Text) (number : isNumber token = true) (_ : range.holds token = true) :
      everyNumber.holds token = true ∧ renumber range.reprint (.number (numberText token)) =
        .number (numberText (range.printed token)) :=
    ⟨rfl, congrArg (fun text => Value.number (numberText (range.printed text)))
      (utf8Bytes_numberText (fun b member => isNumeric_ascii (isNumber_numeric number b member)))⟩
  obtain ⟨phrase, derived', same⟩ : ∃ phrase, Derives builder everyNumber 127 phrase seg ∧
      phrase.map (renumber range.reprint) = .value v := derived.pulled (renumber_onto range.reprint) numbers
  cases phrase with
  | value v' =>
    have again : fromSlice everyNumber text = some v' :=
      read_eq_some_iff.mpr ⟨w, seg, w', parted, space, space', derived'⟩
    rw [reads] at again
    cases again
    exact Phrase.value.inj same
  | items | member | members => cases same

end MessageRelay.Session.Value
