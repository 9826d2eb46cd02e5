import MessageRelay.Library.JsonText

/-! The grammar of JSON text, and the reader held to it: what it reads is derived, and what is derived it reads. -/

namespace MessageRelay.Library.Json

theorem fromUtf8_eq_some {text : Text} {s : String} : fromUtf8 text = some s ↔ utf8Bytes s = text := by
  unfold fromUtf8 String.fromUTF8?
  constructor
  · intro made
    split at made
    · cases made
      simp [utf8Bytes, String.fromUTF8]
    · cases made
  · rintro rfl
    have whole : (⟨(utf8Bytes s).toArray⟩ : ByteArray) = s.toByteArray := by
      simp [utf8Bytes]
    rw [whole, dif_pos s.isValidUTF8]
    rfl

/-- Only space. -/
def Space (w : Text) : Prop := ∀ b ∈ w, isSpace b = true

/-- What may follow a number: nothing a number is written with. -/
def Stops (rest : Text) : Prop := ∀ b ∈ rest.head?, isNumeric b = false

theorem space_nil : Space [] := by
  intro b member
  cases member

theorem skipSpace_split (text : Text) : ∃ w, Space w ∧ text = w ++ skipSpace text :=
  ⟨text.takeWhile isSpace, fun _ member => List.mem_takeWhile_imp member, (List.takeWhile_append_dropWhile ..).symm⟩

theorem skipSpace_append {w : Text} (space : Space w) {b : UInt8} (dense : isSpace b = false) (rest : Text) :
    skipSpace (w ++ b :: rest) = b :: rest := by
  rw [skipSpace, List.dropWhile_append_of_pos space, List.dropWhile_cons_of_neg (by simp [dense])]

theorem skipSpace_space {w : Text} (space : Space w) : skipSpace w = [] := by
  rw [skipSpace, List.dropWhile_eq_nil_iff]
  exact space

/-- No quote of the text is left unescaped, and no escape is left open. -/
def Unbroken (inner : Text) : Prop := ∀ rest, closing (inner ++ quote :: rest) = some (inner, rest)

@[simp] theorem closing_quote (rest : Text) : closing (quote :: rest) = some ([], rest) := by
  rw [closing.eq_def]
  rfl

@[simp] theorem closing_escape (e : UInt8) (rest : Text) :
    closing (backslash :: e :: rest) =
      (closing rest).map (fun (inner, rest) => (backslash :: e :: inner, rest)) := by
  rw [closing.eq_def]
  rfl

theorem closing_plain {b : UInt8} (inside : b ≠ quote) (plain : b ≠ backslash) (rest : Text) :
    closing (b :: rest) = (closing rest).map (fun (inner, rest) => (b :: inner, rest)) := by
  rw [closing.eq_def]
  simp only [if_neg inside, if_neg plain]

theorem closing_sound {text inner rest : Text} (closed : closing text = some (inner, rest)) :
    text = inner ++ quote :: rest ∧ Unbroken inner := by
  induction text using closing.induct generalizing inner with
  | case1 => cases closed
  | case2 more =>
    rw [closing_quote] at closed
    cases closed
    exact ⟨rfl, fun rest => closing_quote rest⟩
  | case3 inside => simp [closing.eq_def, inside] at closed
  | case4 inside e more ih =>
    rw [closing_escape, Option.map_eq_some_iff] at closed
    obtain ⟨⟨tail, after⟩, found, same⟩ := closed
    cases same
    obtain ⟨rfl, unbroken⟩ := ih found
    exact ⟨rfl, fun rest => by simp [unbroken rest]⟩
  | case5 b more inside plain ih =>
    rw [closing_plain inside plain, Option.map_eq_some_iff] at closed
    obtain ⟨⟨tail, after⟩, found, same⟩ := closed
    cases same
    obtain ⟨rfl, unbroken⟩ := ih found
    exact ⟨rfl, fun rest => by simp [closing_plain inside plain, unbroken rest]⟩

/-- The text of a string. -/
def Quoted (s : String) (seg : Text) : Prop :=
  ∃ inner, seg = quote :: (inner ++ [quote]) ∧ Unbroken inner ∧ unescape inner = some (utf8Bytes s)

theorem readString_sound {text rest : Text} {s : String} (taken : readString text = some (s, rest)) :
    ∃ seg, text = seg ++ rest ∧ Quoted s seg := by
  unfold readString at taken
  split at taken
  · cases taken
  · next b more =>
    split at taken
    · next opened =>
      simp only [Option.bind_eq_bind, Option.bind_eq_some_iff, Option.pure_def, Option.some.injEq, Prod.mk.injEq,
        Prod.exists] at taken
      obtain ⟨inner, after, closed, content, meant, s', valid, rfl, rfl⟩ := taken
      obtain ⟨rfl, unbroken⟩ := closing_sound closed
      rw [← fromUtf8_eq_some.mp valid] at meant
      exact ⟨quote :: (inner ++ [quote]), by simp [opened], inner, rfl, unbroken, meant⟩
    · cases taken

theorem readString_complete {s : String} {seg : Text} (quoted : Quoted s seg) (rest : Text) :
    readString (seg ++ rest) = some (s, rest) := by
  obtain ⟨inner, rfl, unbroken, meant⟩ := quoted
  have valid : fromUtf8 (utf8Bytes s) = some s := fromUtf8_eq_some.mpr rfl
  simp [readString, unbroken rest, meant, valid]

/-- What a text is derived as. -/
inductive Phrase (α : Type) where
  | value (v : α)
  | items (vs : List α)
  | member (m : String × α)
  | members (ms : List (String × α))

section
variable {α : Type} (build : Builder α) (range : Range)

/-- The grammar, nested no deeper than the bound. Space stands around values, never inside a phrase's ends but
after the last item or member. -/
inductive Derives : Nat → Phrase α → Text → Prop
  | null {n : Nat} : Derives n (.value build.null) nullText
  | bool {n : Nat} {b : Bool} : Derives n (.value (build.bool b)) (boolText b)
  | number {n : Nat} {token : Text} (number : isNumber token = true) (held : range.holds token = true) :
      Derives n (.value (build.number (numberText (range.printed token)))) token
  | string {n : Nat} {s : String} {seg : Text} (quoted : Quoted s seg) : Derives n (.value (build.string s)) seg
  | emptyArray {n : Nat} {w : Text} (space : Space w) :
      Derives (n + 1) (.value (build.array [])) (openArray :: (w ++ [closeArray]))
  | array {n : Nat} {w seg : Text} {vs : List α} (space : Space w) (items : Derives n (.items vs) seg) :
      Derives (n + 1) (.value (build.array vs)) (openArray :: (w ++ (seg ++ [closeArray])))
  | emptyObject {n : Nat} {w : Text} (space : Space w) :
      Derives (n + 1) (.value (build.object [])) (openObject :: (w ++ [closeObject]))
  | object {n : Nat} {w seg : Text} {ms : List (String × α)} (space : Space w) (members : Derives n (.members ms) seg) :
      Derives (n + 1) (.value (build.object ms)) (openObject :: (w ++ (seg ++ [closeObject])))
  | lastItem {n : Nat} {v : α} {seg w : Text} (item : Derives n (.value v) seg) (space : Space w) :
      Derives n (.items [v]) (seg ++ w)
  | item {n : Nat} {v : α} {vs : List α} {seg w w' more : Text} (item : Derives n (.value v) seg) (space : Space w)
      (space' : Space w') (items : Derives n (.items vs) more) :
      Derives n (.items (v :: vs)) (seg ++ (w ++ comma :: (w' ++ more)))
  | member {n : Nat} {name : String} {v : α} {nameSeg w w' seg : Text} (quoted : Quoted name nameSeg) (space : Space w)
      (space' : Space w') (value : Derives n (.value v) seg) :
      Derives n (.member (name, v)) (nameSeg ++ (w ++ colon :: (w' ++ seg)))
  | lastMember {n : Nat} {m : String × α} {seg w : Text} (member : Derives n (.member m) seg) (space : Space w) :
      Derives n (.members [m]) (seg ++ w)
  | members {n : Nat} {m : String × α} {ms : List (String × α)} {seg w w' more : Text}
      (member : Derives n (.member m) seg) (space : Space w) (space' : Space w') (members : Derives n (.members ms) more) :
      Derives n (.members (m :: ms)) (seg ++ (w ++ comma :: (w' ++ more)))

variable {build range}

theorem isNumber_head {token : Text} (number : isNumber token = true) :
    ∃ b rest, token = b :: rest ∧ (isDigit b = true ∨ b = 0x2d) := by
  cases token with
  | nil => cases number
  | cons b rest =>
    refine ⟨b, rest, rfl, ?_⟩
    by_cases minus : b = 0x2d
    · exact .inr minus
    · left
      rw [isNumber, if_neg minus, isUnsigned] at number
      by_contra other
      rw [List.takeWhile_cons_of_neg other] at number
      cases number

/-- A first byte no value or member begins with. -/
def isSyntax (b : UInt8) : Bool :=
  isSpace b || b = comma || b = colon || b = closeArray || b = closeObject

theorem isSyntax_numeric {b : UInt8} (syntactic : isSyntax b = true) : isNumeric b = false := by
  simp only [isSyntax, isSpace, Bool.or_eq_true, decide_eq_true_eq] at syntactic
  rcases syntactic with ((((((rfl | rfl) | rfl) | rfl) | rfl) | rfl) | rfl) | rfl <;> decide

theorem Derives.head {n : Nat} {phrase : Phrase α} {seg : Text} (derived : Derives build range n phrase seg) :
    ∃ b rest, seg = b :: rest ∧ isSyntax b = false := by
  induction derived with
  | null => exact ⟨_, _, rfl, by decide⟩
  | @bool _ b => cases b <;> exact ⟨_, _, rfl, by decide⟩
  | number number =>
    obtain ⟨b, rest, rfl, digit⟩ := isNumber_head number
    refine ⟨b, rest, rfl, Bool.eq_false_iff.mpr (fun syntactic => ?_)⟩
    have numeric := isSyntax_numeric syntactic
    rcases digit with digit | rfl
    · simp [isNumeric, digit] at numeric
    · exact absurd numeric (by decide)
  | string quoted =>
    obtain ⟨inner, rfl, -⟩ := quoted
    exact ⟨_, _, rfl, by decide⟩
  | emptyArray | array | emptyObject | object => exact ⟨_, _, rfl, by decide⟩
  | lastItem _ _ ih | item _ _ _ _ ih _ | lastMember _ _ ih | members _ _ _ _ ih _ =>
    obtain ⟨b, rest, rfl, plain⟩ := ih
    exact ⟨b, _, rfl, plain⟩
  | member quoted =>
    obtain ⟨inner, rfl, -⟩ := quoted
    exact ⟨_, _, rfl, by decide⟩

/-- What follows a value in a phrase, or ends the text. -/
theorem stops_cons {b : UInt8} (syntactic : isSyntax b = true) (rest : Text) : Stops (b :: rest) := by
  intro head member
  cases member
  exact isSyntax_numeric syntactic

theorem stops_space {w : Text} (space : Space w) {b : UInt8} (syntactic : isSyntax b = true) (rest : Text) :
    Stops (w ++ b :: rest) := by
  cases w with
  | nil => exact stops_cons syntactic rest
  | cons first more =>
    apply stops_cons
    simp [isSyntax, space first List.mem_cons_self]

theorem isNumber_numeric {token : Text} (number : isNumber token = true) : ∀ b ∈ token, isNumeric b = true := by
  have digits {text : Text} (all : isDigits text = true) : ∀ b ∈ text, isNumeric b = true := by
    intro b member
    simp only [isDigits, Bool.and_eq_true, List.all_eq_true] at all
    simp [isNumeric, all.2 b member]
  have exponent {text : Text} (ends : isExponent text = true) : ∀ b ∈ text, isNumeric b = true := by
    cases text with
    | nil => simp
    | cons e rest =>
      simp only [isExponent, Bool.and_eq_true, Bool.or_eq_true, decide_eq_true_eq] at ends
      obtain ⟨letter, ends⟩ := ends
      have first : isNumeric e = true := by rcases letter with rfl | rfl <;> decide
      refine List.forall_mem_cons.mpr ⟨first, ?_⟩
      cases rest with
      | nil => simp
      | cons s more =>
        simp only at ends
        split at ends
        · next sign =>
          refine List.forall_mem_cons.mpr ⟨?_, digits ends⟩
          rcases sign with rfl | rfl <;> decide
        · exact digits ends
  have fraction {text : Text} (ends : isFraction text = true) : ∀ b ∈ text, isNumeric b = true := by
    cases text with
    | nil => simp
    | cons p rest =>
      rw [isFraction] at ends
      split at ends
      · next point =>
        simp only [Bool.and_eq_true] at ends
        refine List.forall_mem_cons.mpr ⟨by rw [point]; decide, ?_⟩
        rw [← List.takeWhile_append_dropWhile (p := isDigit) (l := rest)]
        exact List.forall_mem_append.mpr ⟨digits ends.1, exponent ends.2⟩
      · exact exponent ends
  have unsigned {text : Text} (whole : isUnsigned text = true) : ∀ b ∈ text, isNumeric b = true := by
    rw [isUnsigned] at whole
    rw [← List.takeWhile_append_dropWhile (p := isDigit) (l := text)]
    split at whole
    · cases whole
    · simp only [Bool.and_eq_true] at whole
      refine List.forall_mem_append.mpr ⟨fun b member => ?_, fraction whole.2⟩
      simp [isNumeric, List.mem_takeWhile_imp member]
  cases token with
  | nil => simp
  | cons b rest =>
    rw [isNumber] at number
    split at number
    · next minus => exact List.forall_mem_cons.mpr ⟨by rw [minus]; decide, unsigned number⟩
    · exact unsigned number

theorem readNumber_complete {token : Text} (number : isNumber token = true) (held : range.holds token = true)
    {rest : Text} (stops : Stops rest) :
    readNumber build range (token ++ rest) = some (build.number (numberText (range.printed token)), rest) := by
  have numeric := isNumber_numeric number
  have ended : rest.takeWhile isNumeric = [] ∧ rest.dropWhile isNumeric = rest := by
    cases rest with
    | nil => exact ⟨rfl, rfl⟩
    | cons b more => simp [stops b rfl]
  rw [readNumber, List.takeWhile_append_of_pos numeric, List.dropWhile_append_of_pos numeric, ended.1, ended.2]
  simp [number, held]

theorem readString_ne_quote {b : UInt8} (other : b ≠ quote) (rest : Text) : readString (b :: rest) = none := by
  rw [readString, if_neg other]

/-- No word begins with the byte, so it begins a string or a number. -/
theorem readScalar_wordless {b : UInt8} (apart : b ≠ 0x6e ∧ b ≠ 0x74 ∧ b ≠ 0x66) (rest : Text) :
    readScalar build range (b :: rest) =
      match readString (b :: rest) with
      | some (s, rest) => some (build.string s, rest)
      | none => readNumber build range (b :: rest) := by
  have unlike {c : UInt8} (word : Text) (other : b ≠ c) : (c :: word).isPrefixOf (b :: rest) = false := by
    simp [List.isPrefixOf, Ne.symm other]
  have truth := unlike [0x72, 0x75, 0x65] apart.2.1
  have falsity := unlike [0x61, 0x6c, 0x73, 0x65] apart.2.2
  rw [readScalar]
  exact (if_neg (by rw [nullText, unlike _ apart.1]; exact Bool.false_ne_true)).trans
    ((if_neg (by rw [boolText, if_pos rfl, truth]; exact Bool.false_ne_true)).trans
      (if_neg (by rw [boolText, if_neg Bool.false_ne_true, falsity]; exact Bool.false_ne_true)))

theorem readScalar_complete {token : Text} (number : isNumber token = true) (held : range.holds token = true)
    {rest : Text} (stops : Stops rest) :
    readScalar build range (token ++ rest) = some (build.number (numberText (range.printed token)), rest) := by
  have whole : readNumber build range (token ++ rest) = some (build.number (numberText (range.printed token)), rest) :=
    readNumber_complete number held stops
  obtain ⟨b, more, rfl, first⟩ := isNumber_head number
  have other (c : UInt8) (letter : isDigit c = false ∧ c ≠ 0x2d) : b ≠ c := by
    rintro rfl
    rcases first with digit | minus
    · simp [letter.1] at digit
    · exact letter.2 minus
  rw [List.cons_append, readScalar_wordless ⟨other _ (by decide), other _ (by decide), other _ (by decide)⟩,
    readString_ne_quote (other _ (by decide))]
  exact whole

/-- A value that opens no bracket is read as a scalar, however deep. -/
theorem readValue_scalar {b : UInt8} (array : b ≠ openArray) (object : b ≠ openObject) (n : Nat) (rest : Text) :
    readValue build range n (b :: rest) = readScalar build range (b :: rest) := by
  cases n with
  | zero => rfl
  | succ depth => rw [readValue, if_neg array, if_neg object]

theorem brackets_apart : closeArray ≠ comma ∧ closeObject ≠ comma ∧ openObject ≠ openArray := by decide

/-- What the reader does with a phrase, whatever follows it. -/
def Reads (build : Builder α) (range : Range) (n : Nat) (seg : Text) : Phrase α → Prop
  | .value v => ∀ rest, Stops rest → readValue build range n (seg ++ rest) = some (v, rest)
  | .items vs => ∀ rest fuel, seg.length ≤ fuel →
      readItems (readValue build range n) fuel (seg ++ closeArray :: rest) = some (vs, rest)
  | .member m => ∀ rest, Stops rest → readMember (readValue build range n) (seg ++ rest) = some (m, rest)
  | .members ms => ∀ rest fuel, seg.length ≤ fuel →
      readMembers (readValue build range n) fuel (seg ++ closeObject :: rest) = some (ms, rest)

theorem Derives.reads {n : Nat} {phrase : Phrase α} {seg : Text} (derived : Derives build range n phrase seg) :
    Reads build range n seg phrase := by
  induction derived with
  | null =>
    intro rest _
    rw [nullText, List.cons_append, readValue_scalar (by decide) (by decide)]
    simp [readScalar, nullText, List.isPrefixOf]
  | @bool _ b =>
    intro rest _
    cases b <;>
    · simp only [boolText, Bool.false_eq_true, if_false, if_true, List.cons_append]
      rw [readValue_scalar (by decide) (by decide)]
      simp [readScalar, nullText, boolText, List.isPrefixOf]
  | number number held =>
    intro rest stops
    have whole := @readScalar_complete _ build _ _ number held _ stops
    obtain ⟨b, more, rfl, first⟩ := isNumber_head number
    rw [List.cons_append, readValue_scalar, ← List.cons_append]
    · exact whole
    · rintro rfl
      rcases first with digit | minus <;> contradiction
    · rintro rfl
      rcases first with digit | minus <;> contradiction
  | @string _ s seg quoted =>
    intro rest _
    have whole := readString_complete quoted rest
    obtain ⟨inner, rfl, -⟩ := quoted
    rw [List.cons_append, readValue_scalar (by decide) (by decide), readScalar_wordless (by decide),
      ← List.cons_append, whole]
  | @emptyArray n w space =>
    intro rest _
    have ended := skipSpace_append space (b := closeArray) (by decide) rest
    simp [readValue, readArray, ended]
  | @array n w seg vs space items ih =>
    intro rest _
    obtain ⟨b, more, rfl, plain⟩ := items.head
    simp only [isSyntax, Bool.or_eq_false_iff, decide_eq_false_iff_not] at plain
    have started := skipSpace_append space plain.1.1.1.1 (more ++ closeArray :: rest)
    have body := ih rest ((more ++ closeArray :: rest).length + 1) (by simp)
    simp only [List.cons_append, List.length_append, List.length_cons] at body
    simp [readValue, readArray, started, plain.1.2, body]
  | @emptyObject n w space =>
    intro rest _
    have ended := skipSpace_append space (b := closeObject) (by decide) rest
    simp [readValue, readObject, ended, brackets_apart]
  | @object n w seg ms space members ih =>
    intro rest _
    obtain ⟨b, more, rfl, plain⟩ := members.head
    simp only [isSyntax, Bool.or_eq_false_iff, decide_eq_false_iff_not] at plain
    have started := skipSpace_append space plain.1.1.1.1 (more ++ closeObject :: rest)
    have body := ih rest ((more ++ closeObject :: rest).length + 1) (by simp)
    simp only [List.cons_append, List.length_append, List.length_cons] at body
    simp [readValue, readObject, started, plain.2, body, brackets_apart]
  | @lastItem n v seg w item space ih =>
    intro rest fuel enough
    obtain ⟨b, more, rfl, -⟩ := item.head
    obtain ⟨fuel, rfl⟩ : ∃ k, fuel = k + 1 := ⟨fuel - 1, by simp at enough; omega⟩
    have first := ih (w ++ closeArray :: rest) (stops_space space (by decide) rest)
    have ended := skipSpace_append space (b := closeArray) (by decide) rest
    rw [readItems, List.append_assoc, first]
    simp [ended, brackets_apart]
  | @item n v vs seg w w' more item space space' items ih ih' =>
    intro rest fuel enough
    obtain ⟨b, after, rfl, -⟩ := item.head
    obtain ⟨c, later, rfl, plain⟩ := items.head
    obtain ⟨fuel, rfl⟩ : ∃ k, fuel = k + 1 := ⟨fuel - 1, by simp at enough; omega⟩
    simp only [isSyntax, Bool.or_eq_false_iff] at plain
    have first := ih (w ++ comma :: (w' ++ (c :: later) ++ closeArray :: rest)) (stops_space space (by decide) _)
    have parted := skipSpace_append space (b := comma) (by decide) (w' ++ (c :: later) ++ closeArray :: rest)
    have started := skipSpace_append space' plain.1.1.1.1 (later ++ closeArray :: rest)
    have tail := ih' rest fuel (by simp at enough ⊢; omega)
    simp only [List.append_assoc, List.cons_append] at first parted started tail ⊢
    rw [readItems, first]
    simp [parted, started, tail]
  | @member n name v nameSeg w w' seg quoted space space' value ih =>
    intro rest stops
    obtain ⟨c, later, rfl, plain⟩ := value.head
    simp only [isSyntax, Bool.or_eq_false_iff] at plain
    have named := readString_complete quoted (w ++ colon :: (w' ++ (c :: later) ++ rest))
    have parted := skipSpace_append space (b := colon) (by decide) (w' ++ (c :: later) ++ rest)
    have started := skipSpace_append space' plain.1.1.1.1 (later ++ rest)
    have tail := ih rest stops
    simp only [List.append_assoc, List.cons_append] at named parted started tail ⊢
    rw [readMember, named]
    simp [parted, started, tail]
  | @lastMember n m seg w member space ih =>
    intro rest fuel enough
    obtain ⟨b, more, rfl, -⟩ := member.head
    obtain ⟨fuel, rfl⟩ : ∃ k, fuel = k + 1 := ⟨fuel - 1, by simp at enough; omega⟩
    have first := ih (w ++ closeObject :: rest) (stops_space space (by decide) rest)
    have ended := skipSpace_append space (b := closeObject) (by decide) rest
    rw [readMembers, List.append_assoc, first]
    simp [ended, brackets_apart]
  | @members n m ms seg w w' more member space space' members ih ih' =>
    intro rest fuel enough
    obtain ⟨b, after, rfl, -⟩ := member.head
    obtain ⟨c, later, rfl, plain⟩ := members.head
    obtain ⟨fuel, rfl⟩ : ∃ k, fuel = k + 1 := ⟨fuel - 1, by simp at enough; omega⟩
    simp only [isSyntax, Bool.or_eq_false_iff] at plain
    have first := ih (w ++ comma :: (w' ++ (c :: later) ++ closeObject :: rest)) (stops_space space (by decide) _)
    have parted := skipSpace_append space (b := comma) (by decide) (w' ++ (c :: later) ++ closeObject :: rest)
    have started := skipSpace_append space' plain.1.1.1.1 (later ++ closeObject :: rest)
    have tail := ih' rest fuel (by simp at enough ⊢; omega)
    simp only [List.append_assoc, List.cons_append] at first parted started tail ⊢
    rw [readMembers, first]
    simp [parted, started, tail]

theorem readNumber_sound {n : Nat} {text rest : Text} {v : α}
    (taken : readNumber build range text = some (v, rest)) :
    ∃ seg, text = seg ++ rest ∧ Derives build range n (.value v) seg := by
  simp only [readNumber] at taken
  split at taken
  · next whole =>
    cases taken
    simp only [Bool.and_eq_true] at whole
    exact ⟨_, (List.takeWhile_append_dropWhile ..).symm, .number whole.1 whole.2⟩
  · cases taken

theorem readScalar_sound {n : Nat} {text rest : Text} {v : α}
    (taken : readScalar build range text = some (v, rest)) :
    ∃ seg, text = seg ++ rest ∧ Derives build range n (.value v) seg := by
  have word {w : Text} (prefixed : w.isPrefixOf text = true) : text = w ++ text.drop w.length := by
    obtain ⟨rest, rfl⟩ := List.isPrefixOf_iff_prefix.mp prefixed
    simp
  unfold readScalar at taken
  split at taken
  · next prefixed =>
    cases taken
    exact ⟨nullText, word prefixed, .null⟩
  · split at taken
    · next prefixed =>
      cases taken
      exact ⟨boolText true, word prefixed, .bool⟩
    · split at taken
      · next prefixed =>
        cases taken
        exact ⟨boolText false, word prefixed, .bool⟩
      · split at taken
        · next s after quoted =>
          cases taken
          obtain ⟨seg, rfl, written⟩ := readString_sound quoted
          exact ⟨seg, rfl, .string written⟩
        · exact readNumber_sound taken

/-- What is read as a value is derived as one. -/
def Sound (build : Builder α) (range : Range) (n : Nat) (read : Text → Option (α × Text)) : Prop :=
  ∀ text v rest, read text = some (v, rest) → ∃ seg, text = seg ++ rest ∧ Derives build range n (.value v) seg

theorem readItems_sound {n : Nat} {take : Text → Option (α × Text)} (sound : Sound build range n take) {fuel : Nat}
    {text rest : Text} {vs : List α} (taken : readItems take fuel text = some (vs, rest)) :
    ∃ seg, text = seg ++ closeArray :: rest ∧ Derives build range n (.items vs) seg := by
  induction fuel generalizing text vs with
  | zero => cases taken
  | succ fuel ih =>
    rw [readItems] at taken
    split at taken
    · cases taken
    · next item after first =>
      obtain ⟨seg, rfl, derived⟩ := sound _ _ _ first
      obtain ⟨w, space, parted⟩ := skipSpace_split after
      split at taken
      · cases taken
      · next b more there =>
        rw [there] at parted
        split at taken
        · next separated =>
          rw [Option.map_eq_some_iff] at taken
          obtain ⟨⟨items, last⟩, found, same⟩ := taken
          cases same
          obtain ⟨later, split', items⟩ := ih found
          obtain ⟨w', space', again⟩ := skipSpace_split more
          refine ⟨seg ++ (w ++ comma :: (w' ++ later)), ?_, .item derived space space' items⟩
          rw [parted, again, split', separated]
          simp
        · split at taken
          · next closed =>
            cases taken
            exact ⟨seg ++ w, by simp [parted, closed], .lastItem derived space⟩
          · cases taken

theorem readMember_sound {n : Nat} {take : Text → Option (α × Text)} (sound : Sound build range n take)
    {text rest : Text} {m : String × α} (taken : readMember take text = some (m, rest)) :
    ∃ seg, text = seg ++ rest ∧ Derives build range n (.member m) seg := by
  rw [readMember] at taken
  split at taken
  · cases taken
  · next name after named =>
    obtain ⟨nameSeg, rfl, quoted⟩ := readString_sound named
    obtain ⟨w, space, parted⟩ := skipSpace_split after
    split at taken
    · cases taken
    · next b more there =>
      rw [there] at parted
      split at taken
      · next separated =>
        rw [Option.map_eq_some_iff] at taken
        obtain ⟨⟨v, last⟩, found, same⟩ := taken
        cases same
        obtain ⟨seg, split', derived⟩ := sound _ _ _ found
        obtain ⟨w', space', again⟩ := skipSpace_split more
        refine ⟨nameSeg ++ (w ++ colon :: (w' ++ seg)), ?_, .member quoted space space' derived⟩
        rw [parted, again, split', separated]
        simp
      · cases taken

theorem readMembers_sound {n : Nat} {take : Text → Option (α × Text)} (sound : Sound build range n take) {fuel : Nat}
    {text rest : Text} {ms : List (String × α)} (taken : readMembers take fuel text = some (ms, rest)) :
    ∃ seg, text = seg ++ closeObject :: rest ∧ Derives build range n (.members ms) seg := by
  induction fuel generalizing text ms with
  | zero => cases taken
  | succ fuel ih =>
    rw [readMembers] at taken
    split at taken
    · cases taken
    · next member after first =>
      obtain ⟨seg, rfl, derived⟩ := readMember_sound sound first
      obtain ⟨w, space, parted⟩ := skipSpace_split after
      split at taken
      · cases taken
      · next b more there =>
        rw [there] at parted
        split at taken
        · next separated =>
          rw [Option.map_eq_some_iff] at taken
          obtain ⟨⟨members, last⟩, found, same⟩ := taken
          cases same
          obtain ⟨later, split', members⟩ := ih found
          obtain ⟨w', space', again⟩ := skipSpace_split more
          refine ⟨seg ++ (w ++ comma :: (w' ++ later)), ?_, .members derived space space' members⟩
          rw [parted, again, split', separated]
          simp
        · split at taken
          · next closed =>
            cases taken
            exact ⟨seg ++ w, by simp [parted, closed], .lastMember derived space⟩
          · cases taken

theorem readArray_sound {n : Nat} {take : Text → Option (α × Text)} (sound : Sound build range n take)
    {text rest : Text} {v : α} (taken : readArray build take text = some (v, rest)) :
    ∃ seg, openArray :: text = seg ++ rest ∧ Derives build range (n + 1) (.value v) seg := by
  obtain ⟨w, space, parted⟩ := skipSpace_split text
  rw [readArray] at taken
  split at taken
  · cases taken
  · next b more there =>
    rw [there] at parted
    split at taken
    · next closed =>
      cases taken
      exact ⟨openArray :: (w ++ [closeArray]), by simp [parted, closed], .emptyArray space⟩
    · rw [Option.map_eq_some_iff] at taken
      obtain ⟨⟨items, last⟩, found, same⟩ := taken
      cases same
      obtain ⟨seg, split', items⟩ := readItems_sound sound found
      exact ⟨openArray :: (w ++ (seg ++ [closeArray])), by simp [parted, split'], .array space items⟩

theorem readObject_sound {n : Nat} {take : Text → Option (α × Text)} (sound : Sound build range n take)
    {text rest : Text} {v : α} (taken : readObject build take text = some (v, rest)) :
    ∃ seg, openObject :: text = seg ++ rest ∧ Derives build range (n + 1) (.value v) seg := by
  obtain ⟨w, space, parted⟩ := skipSpace_split text
  rw [readObject] at taken
  split at taken
  · cases taken
  · next b more there =>
    rw [there] at parted
    split at taken
    · next closed =>
      cases taken
      exact ⟨openObject :: (w ++ [closeObject]), by simp [parted, closed], .emptyObject space⟩
    · rw [Option.map_eq_some_iff] at taken
      obtain ⟨⟨members, last⟩, found, same⟩ := taken
      cases same
      obtain ⟨seg, split', members⟩ := readMembers_sound sound found
      exact ⟨openObject :: (w ++ (seg ++ [closeObject])), by simp [parted, split'], .object space members⟩

theorem readValue_sound (n : Nat) : Sound build range n (readValue build range n) := by
  induction n with
  | zero => exact fun _ _ _ taken => readScalar_sound taken
  | succ depth ih =>
    intro text v rest taken
    rw [readValue.eq_def] at taken
    cases text with
    | nil => cases taken
    | cons b more =>
      simp only at taken
      split at taken
      · next opened => exact opened ▸ readArray_sound ih taken
      · split at taken
        · next opened => exact opened ▸ readObject_sound ih taken
        · exact readScalar_sound taken

/-- The texts a value is read from: those the grammar derives it from, with space around them. -/
theorem read_eq_some_iff {depth : Nat} {text : Text} {v : α} : read build range depth text = some v ↔
    ∃ w seg w', text = w ++ (seg ++ w') ∧ Space w ∧ Space w' ∧ Derives build range depth (.value v) seg := by
  constructor
  · intro whole
    obtain ⟨w, space, parted⟩ := skipSpace_split text
    rw [read] at whole
    split at whole
    · cases whole
    · next taken =>
      split at whole
      · next ended =>
        cases whole
        obtain ⟨seg, split', derived⟩ := readValue_sound depth _ _ _ taken
        obtain ⟨w', space', last⟩ := skipSpace_split (_ : Text)
        rw [ended, List.append_nil] at last
        exact ⟨w, seg, w', by rw [parted, split', last], space, space', derived⟩
      · cases whole
  · rintro ⟨w, seg, w', rfl, space, space', derived⟩
    obtain ⟨b, more, rfl, plain⟩ := derived.head
    have whole := derived.reads
    simp only [isSyntax, Bool.or_eq_false_iff] at plain
    have stops : Stops w' := by
      cases w' with
      | nil => exact fun _ member => nomatch member
      | cons first later => exact stops_cons (by simp [isSyntax, space' first List.mem_cons_self]) later
    rw [read, List.cons_append, skipSpace_append space plain.1.1.1.1, ← List.cons_append, whole w' stops]
    simp [skipSpace_space space']

/-- A text is derived as one value. -/
theorem Derives.unique {n : Nat} {v w : α} {seg : Text} (derived : Derives build range n (.value v) seg)
    (other : Derives build range n (.value w) seg) : v = w := by
  have stops : Stops [] := fun _ member => nomatch member
  have first := derived.reads [] stops
  rw [other.reads [] stops] at first
  cases first
  rfl

end

section
variable {α β : Type} {build : Builder α} {build' : Builder β} {range range' : Range} {h : β → α}

def Phrase.map (h : β → α) : Phrase β → Phrase α
  | .value v => .value (h v)
  | .items vs => .items (vs.map h)
  | .member m => .member (m.1, h m.2)
  | .members ms => .members (ms.map (fun m => (m.1, h m.2)))

/-- What one builder makes of a text, the other makes it of. -/
structure Builder.Onto (build' : Builder β) (build : Builder α) (h : β → α) : Prop where
  null : h build'.null = build.null
  bool : ∀ b, h (build'.bool b) = build.bool b
  string : ∀ s, h (build'.string s) = build.string s
  array : ∀ vs, h (build'.array vs) = build.array (vs.map h)
  object : ∀ ms, h (build'.object ms) = build.object (ms.map (fun m => (m.1, h m.2)))

/-- Two readers of one text differ in what they make of it only. -/
theorem Derives.pulled (onto : build'.Onto build h)
    (numbers : ∀ token, isNumber token = true → range.holds token = true → range'.holds token = true ∧
      h (build'.number (numberText (range'.printed token))) = build.number (numberText (range.printed token)))
    {n : Nat} {phrase : Phrase α} {seg : Text} (derived : Derives build range n phrase seg) :
    ∃ phrase', Derives build' range' n phrase' seg ∧ phrase'.map h = phrase := by
  induction derived with
  | null => exact ⟨_, .null, congrArg Phrase.value onto.null⟩
  | bool => exact ⟨_, .bool, congrArg Phrase.value (onto.bool _)⟩
  | number number held =>
    obtain ⟨held', same⟩ := numbers _ number held
    exact ⟨_, .number number held', congrArg Phrase.value same⟩
  | string quoted => exact ⟨_, .string quoted, congrArg Phrase.value (onto.string _)⟩
  | emptyArray space => exact ⟨_, .emptyArray space, congrArg Phrase.value (onto.array [])⟩
  | array space _ ih =>
    obtain ⟨phrase', items, same⟩ := ih
    cases phrase' with
    | items vs =>
      cases same
      exact ⟨_, .array space items, congrArg Phrase.value (onto.array vs)⟩
    | value | member | members => cases same
  | emptyObject space => exact ⟨_, .emptyObject space, congrArg Phrase.value (onto.object [])⟩
  | object space _ ih =>
    obtain ⟨phrase', members, same⟩ := ih
    cases phrase' with
    | members ms =>
      cases same
      exact ⟨_, .object space members, congrArg Phrase.value (onto.object ms)⟩
    | value | items | member => cases same
  | lastItem _ space ih =>
    obtain ⟨phrase', item, same⟩ := ih
    cases phrase' with
    | value v =>
      cases same
      exact ⟨_, .lastItem item space, rfl⟩
    | items | member | members => cases same
  | item _ space space' _ ih ih' =>
    obtain ⟨phrase', item, same⟩ := ih
    obtain ⟨more', items, rest⟩ := ih'
    cases phrase' with
    | value v =>
      cases more' with
      | items vs =>
        cases same
        cases rest
        exact ⟨_, .item item space space' items, rfl⟩
      | value | member | members => cases rest
    | items | member | members => cases same
  | member quoted space space' _ ih =>
    obtain ⟨phrase', value, same⟩ := ih
    cases phrase' with
    | value v =>
      cases same
      exact ⟨_, .member quoted space space' value, rfl⟩
    | items | member | members => cases same
  | lastMember _ space ih =>
    obtain ⟨phrase', member, same⟩ := ih
    cases phrase' with
    | member m =>
      cases same
      exact ⟨_, .lastMember member space, rfl⟩
    | value | items | members => cases same
  | members _ space space' _ ih ih' =>
    obtain ⟨phrase', member, same⟩ := ih
    obtain ⟨more', members, rest⟩ := ih'
    cases phrase' with
    | member m =>
      cases more' with
      | members ms =>
        cases same
        cases rest
        exact ⟨_, .members member space space' members, rfl⟩
      | value | items | member => cases rest
    | value | items | members => cases same

end

end MessageRelay.Library.Json
