import MessageRelay.Send.ReadBody

/-! The scan held to the grammar: past a value's text it stands where the value ends, whatever the value holds. -/

namespace MessageRelay.Send
open MessageRelay.Lane MessageRelay.Library MessageRelay.Library.Json MessageRelay.Session MessageRelay.Payments

theorem skipWs_eq (text : Text) : skipWs text = skipSpace text := by
  induction text with
  | nil => rfl
  | cons b rest ih =>
    rw [skipWs, ih]
    exact (List.dropWhile_cons (p := isSpace)).symm

theorem skipQuoted_eq (text : Text) : skipQuoted text = (closing text).map Prod.snd := by
  induction text using skipQuoted.induct with
  | case1 => rfl
  | case2 => rfl
  | case3 e more ih =>
    rw [skipQuoted.eq_def, closing_escape]
    simp only [if_true, Option.map_map]
    exact ih
  | case4 more plain =>
    rw [skipQuoted.eq_def, closing_quote]
    rfl
  | case5 b more plain inside ih =>
    rw [skipQuoted.eq_def, closing_plain inside plain]
    simp only [if_neg plain, if_neg inside, Option.map_map]
    exact ih

theorem skipString_quoted {s : String} {seg : Text} (quoted : Quoted s seg) (rest : Text) :
    skipString (seg ++ rest) = some rest := by
  obtain ⟨inner, rfl, unbroken, -⟩ := quoted
  simp [skipString, skipQuoted_eq, unbroken rest]

theorem parseKey_quoted {s : String} {seg : Text} (quoted : Quoted s seg) : parseKey seg = some s := by
  have whole := readString_complete quoted []
  obtain ⟨inner, rfl, -⟩ := quoted
  have started := skipSpace_append space_nil (b := quote) (by decide) (inner ++ [quote])
  rw [List.append_nil] at whole
  rw [List.nil_append] at started
  rw [parseKey, started, whole]
  rfl

/-- A byte that neither opens, closes nor quotes. -/
def isInert (b : UInt8) : Bool :=
  b ≠ quote && b ≠ openObject && b ≠ openArray && b ≠ closeObject && b ≠ closeArray

theorem skipNested_inert {w : Text} (inert : ∀ b ∈ w, isInert b = true) (depth : Nat) (rest : Text) :
    skipNested depth (w ++ rest) = skipNested depth rest := by
  induction w with
  | nil => rfl
  | cons b more ih =>
    have first := inert b List.mem_cons_self
    simp only [isInert, Bool.and_eq_true, decide_eq_true_eq] at first
    obtain ⟨⟨⟨⟨q, oo⟩, oa⟩, co⟩, ca⟩ := first
    rw [List.cons_append, skipNested]
    simp only [q, oo, oa, co, ca, if_false, decide_false, Bool.or_false, Bool.false_eq_true]
    exact ih (fun c member => inert c (List.mem_cons_of_mem _ member))

theorem skipNested_quoted {s : String} {seg : Text} (quoted : Quoted s seg) (depth : Nat) (rest : Text) :
    skipNested depth (seg ++ rest) = skipNested depth rest := by
  have skipped := skipString_quoted quoted rest
  obtain ⟨inner, rfl, -⟩ := quoted
  simp only [List.cons_append, List.append_assoc, List.nil_append, skipString, if_true] at skipped
  simp only [List.cons_append, List.append_assoc, List.nil_append]
  rw [skipNested, if_pos rfl]
  split
  · next failed => simp [skipped] at failed
  · next after found =>
    rw [skipped] at found
    cases found
    rfl

theorem isInert_of_space {b : UInt8} (space : isSpace b = true) : isInert b = true := by
  simp only [isSpace, Bool.or_eq_true, decide_eq_true_eq] at space
  rcases space with ((rfl | rfl) | rfl) | rfl <;> decide

theorem isInert_of_numeric {b : UInt8} (numeric : isNumeric b = true) : isInert b = true := by
  have other (c : UInt8) (apart : isNumeric c = false) : b ≠ c := by
    rintro rfl
    simp [apart] at numeric
  simp [isInert, other quote (by decide), other openObject (by decide), other openArray (by decide),
    other closeObject (by decide), other closeArray (by decide)]

theorem skipNested_open {b : UInt8} (opens : b = openObject ∨ b = openArray) (depth : Nat) (rest : Text) :
    skipNested depth (b :: rest) = skipNested (depth + 1) rest := by
  rcases opens with rfl | rfl <;> rw [skipNested] <;> rfl

theorem skipNested_close {b : UInt8} (closes : b = closeObject ∨ b = closeArray) (depth : Nat) (rest : Text) :
    skipNested (depth + 1) (b :: rest) = if depth = 0 then some rest else skipNested depth rest := by
  rcases closes with rfl | rfl <;> rw [skipNested] <;> rfl

section
variable {range : Range}

/-- Inside brackets the scan passes a phrase's text whole. -/
theorem skipNested_derives {n : Nat} {phrase : Phrase Value} {seg : Text}
    (derived : Derives Value.builder range n phrase seg) (depth : Nat) (rest : Text) :
    skipNested (depth + 1) (seg ++ rest) = skipNested (depth + 1) rest := by
  have spaced {w : Text} (space : Space w) (depth : Nat) (rest : Text) :
      skipNested depth (w ++ rest) = skipNested depth rest :=
    skipNested_inert (fun b member => isInert_of_space (space b member)) depth rest
  have mark {b : UInt8} (inert : isInert b = true) (depth : Nat) (rest : Text) :
      skipNested depth (b :: rest) = skipNested depth rest :=
    skipNested_inert (w := [b]) (by simpa using inert) depth rest
  have comma' := fun depth rest => mark (b := comma) (by decide) depth rest
  have colon' := fun depth rest => mark (b := colon) (by decide) depth rest
  induction derived generalizing depth rest with
  | null => exact skipNested_inert (w := nullText) (List.all_eq_true.mp rfl) (depth + 1) rest
  | @bool _ b =>
    have word : ∀ c ∈ boolText b, isInert c = true := by cases b <;> exact List.all_eq_true.mp rfl
    exact skipNested_inert word (depth + 1) rest
  | number number =>
    exact skipNested_inert (fun b member => isInert_of_numeric (isNumber_numeric number b member)) (depth + 1) rest
  | string quoted => exact skipNested_quoted quoted (depth + 1) rest
  | emptyArray space =>
    rw [List.cons_append, skipNested_open (.inr rfl), List.append_assoc, spaced space]
    exact skipNested_close (.inr rfl) (depth + 1) rest
  | array space _ ih =>
    rw [List.cons_append, skipNested_open (.inr rfl), List.append_assoc, spaced space, List.append_assoc, ih]
    exact skipNested_close (.inr rfl) (depth + 1) rest
  | emptyObject space =>
    rw [List.cons_append, skipNested_open (.inl rfl), List.append_assoc, spaced space]
    exact skipNested_close (.inl rfl) (depth + 1) rest
  | object space _ ih =>
    rw [List.cons_append, skipNested_open (.inl rfl), List.append_assoc, spaced space, List.append_assoc, ih]
    exact skipNested_close (.inl rfl) (depth + 1) rest
  | lastItem _ space ih | lastMember _ space ih => rw [List.append_assoc, ih, spaced space]
  | item _ space space' _ ih ih' | members _ space space' _ ih ih' =>
    rw [List.append_assoc, ih, List.append_assoc, spaced space, List.cons_append, comma', List.append_assoc,
      spaced space', ih']
  | member quoted space space' _ ih =>
    rw [List.append_assoc, skipNested_quoted quoted, List.append_assoc, spaced space, List.cons_append, colon',
      List.append_assoc, spaced space', ih]

/-- What ends a scalar, or nothing at all. -/
def EndsScalar (rest : Text) : Prop := ∀ b ∈ rest.head?, endsScalar b = true

theorem skipValue_scalar {b : UInt8} (more : Text) (scalar : (b :: more).all (fun c => !endsScalar c) = true)
    (noQuote : b ≠ quote) (open' : b ≠ openObject ∧ b ≠ openArray) {rest : Text} (ends : EndsScalar rest) :
    skipValue (b :: more ++ rest) = some rest := by
  have plain : ∀ c ∈ b :: more, endsScalar c = false := by simpa using scalar
  have stopped : (more ++ rest).dropWhile (fun c => !endsScalar c) = rest := by
    rw [List.dropWhile_append_of_pos (fun c member => by simp [plain c (List.mem_cons_of_mem _ member)])]
    cases rest with
    | nil => rfl
    | cons c later => rw [List.dropWhile_cons_of_neg (by simp [ends c rfl])]
  rw [List.cons_append, skipValue, if_neg noQuote]
  simp only [open'.1, open'.2, decide_false, Bool.or_false, Bool.false_eq_true, if_false,
    plain b List.mem_cons_self, stopped]

theorem endsScalar_numeric {b : UInt8} (numeric : isNumeric b = true) : endsScalar b = false := by
  rw [← Bool.not_eq_true]
  intro ends
  simp only [endsScalar, Bool.or_eq_true, decide_eq_true_eq] at ends
  rcases ends with (((((rfl | rfl) | rfl) | rfl) | rfl) | rfl) | rfl <;> exact absurd numeric (by decide)

/-- Past a value's text the scan stands at what follows it. -/
theorem skipValue_derives {n : Nat} {v : Value} {seg : Text} (derived : Derives Value.builder range n (.value v) seg)
    {rest : Text} (ends : EndsScalar rest) : skipValue (seg ++ rest) = some rest := by
  have spaced {w : Text} (space : Space w) (depth : Nat) (rest : Text) :
      skipNested depth (w ++ rest) = skipNested depth rest :=
    skipNested_inert (fun b member => isInert_of_space (space b member)) depth rest
  have array (more : Text) : skipValue (openArray :: more) = skipNested 1 more := by
    rw [skipValue, ← skipNested_open (.inr rfl)]
    rfl
  have object (more : Text) : skipValue (openObject :: more) = skipNested 1 more := by
    rw [skipValue, ← skipNested_open (.inl rfl)]
    rfl
  generalize phrase : Phrase.value v = p at derived
  cases derived with
  | null => exact skipValue_scalar [0x75, 0x6c, 0x6c] (by decide) (by decide) (by decide) ends
  | @bool _ b =>
    cases b
    · exact skipValue_scalar [0x61, 0x6c, 0x73, 0x65] (by decide) (by decide) (by decide) ends
    · exact skipValue_scalar [0x72, 0x75, 0x65] (by decide) (by decide) (by decide) ends
  | number number =>
    have numeric := isNumber_numeric number
    obtain ⟨b, more, rfl, -⟩ := isNumber_head number
    have first := numeric b List.mem_cons_self
    have scalar : (b :: more).all (fun c => !endsScalar c) = true :=
      List.all_eq_true.mpr (fun c member => by simp [endsScalar_numeric (numeric c member)])
    refine skipValue_scalar more scalar ?_ ⟨?_, ?_⟩ ends
    all_goals
      rintro rfl
      exact absurd first (by decide)
  | string quoted =>
    have skipped := skipString_quoted quoted rest
    obtain ⟨inner, rfl, -⟩ := quoted
    rw [List.cons_append, skipValue, if_pos rfl]
    exact skipped
  | emptyArray space =>
    rw [List.cons_append, array, List.append_assoc, spaced space]
    exact skipNested_close (.inr rfl) 0 rest
  | array space items =>
    rw [List.cons_append, array, List.append_assoc, spaced space, List.append_assoc, skipNested_derives items]
    exact skipNested_close (.inr rfl) 0 rest
  | emptyObject space =>
    rw [List.cons_append, object, List.append_assoc, spaced space]
    exact skipNested_close (.inl rfl) 0 rest
  | object space members =>
    rw [List.cons_append, object, List.append_assoc, spaced space, List.append_assoc, skipNested_derives members]
    exact skipNested_close (.inl rfl) 0 rest
  | lastItem | item | member | lastMember | members => cases phrase

theorem slice_append (seg rest : Text) : slice (seg ++ rest) rest = seg := by
  simp [slice]

theorem endsScalar_space {w : Text} (space : Space w) {b : UInt8} (ends : endsScalar b = true) (rest : Text) :
    EndsScalar (w ++ b :: rest) := by
  intro c member
  cases w with
  | nil =>
    cases member
    exact ends
  | cons first more =>
    cases member
    have spaced := space c List.mem_cons_self
    simp only [isSpace, Bool.or_eq_true, decide_eq_true_eq] at spaced
    rcases spaced with ((rfl | rfl) | rfl) | rfl <;> decide

/-- A cell with the text from its value on is the member the scan hands on. -/
def scanned {n : Nat} (c : Cell Value.builder range n) (stop : Text) : Member := ⟨c.name, c.text ++ stop, stop⟩

/-- The members of some cells, with the text after the last. -/
def scannedCells {n : Nat} : List (Cell Value.builder range n) → Text → List Member
  | [], _ => []
  | c :: rest, tail => scanned c (c.after rest (renderCells rest tail)) :: scannedCells rest tail

/-- One member scanned, up to the mark after it. -/
theorem membersFrom_cell {n : Nat} (c : Cell Value.builder range n) (later : List (Cell Value.builder range n))
    (tail : Text) {after : Text} {mark : UInt8} (ends : endsScalar mark = true) (dense : isSpace mark = false)
    (stopped : c.after later (renderCells later tail) = c.space ++ mark :: after) (fuel : Nat) :
    membersFrom (fuel + 1) (renderCells (c :: later) tail) =
      if mark = comma then
        (scanned c (c.space ++ mark :: after) :: (membersFrom fuel (skipWs after)).1, (membersFrom fuel (skipWs after)).2)
      else if mark = closeObject then ([scanned c (c.space ++ mark :: after)], some after)
      else ([scanned c (c.space ++ mark :: after)], none) := by
  obtain ⟨nameSeg, w, w', front, quoted, space, space'⟩ := c.named
  obtain ⟨b, more, text, plain⟩ := c.derived.head
  simp only [isSyntax, Bool.or_eq_false_iff] at plain
  have key := skipString_quoted quoted (w ++ colon :: (w' ++ (c.text ++ (c.space ++ mark :: after))))
  have colon' := skipSpace_append space (b := colon) (by decide) (w' ++ (c.text ++ (c.space ++ mark :: after)))
  have started := skipSpace_append space' plain.1.1.1.1 (more ++ (c.space ++ mark :: after))
  have skipped := skipValue_derives c.derived (endsScalar_space c.spaced ends after)
  have ended := skipSpace_append c.spaced dense after
  rw [← List.cons_append, ← text] at started
  have unfolded : renderCells (c :: later) tail =
      nameSeg ++ (w ++ colon :: (w' ++ (c.text ++ (c.space ++ mark :: after)))) := by
    rw [renderCells, stopped, front]
    simp
  rw [unfolded, membersFrom, key]
  simp only [slice_append, parseKey_quoted quoted, skipWs_eq, colon', if_true, started, skipped, ended]
  rfl

theorem membersFrom_cells {n : Nat} {cells : List (Cell Value.builder range n)} (some' : cells ≠ []) (rest : Text)
    {fuel : Nat} (enough : cells.length ≤ fuel) : membersFrom fuel (renderCells cells (closeObject :: rest)) =
      (scannedCells cells (closeObject :: rest), some rest) := by
  induction cells generalizing fuel with
  | nil => exact absurd rfl some'
  | cons c later ih =>
    obtain ⟨fuel, rfl⟩ : ∃ k, fuel = k + 1 := ⟨fuel - 1, by simp at enough; omega⟩
    cases later with
    | nil => exact membersFrom_cell c [] _ (show endsScalar closeObject = true by decide) (by decide) rfl fuel
    | cons d more =>
      have tail := ih (List.cons_ne_nil d more) (Nat.le_of_succ_le_succ enough)
      have first := membersFrom_cell c (d :: more) (closeObject :: rest) (show endsScalar comma = true by decide) (by decide)
        rfl fuel
      have headed : ∃ b after, renderCells (d :: more) (closeObject :: rest) = b :: after ∧ isSpace b = false := by
        obtain ⟨nameSeg, w, w', front, ⟨inner, rfl, -⟩, -⟩ := d.named
        exact ⟨quote, _, by rw [renderCells, front]; rfl, by decide⟩
      obtain ⟨b, after, rendered, dense⟩ := headed
      have started := skipSpace_append c.led dense after
      rw [← rendered, ← skipWs_eq] at started
      rw [first, if_pos rfl, started, tail]
      rfl

end

end MessageRelay.Send
