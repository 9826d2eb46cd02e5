import MessageRelay.Library.JsonGrammar

/-! The text of an object, member by member. A cell holds one member's text, cut at its value, so that a value can be
put in another's place and the rest of the text stays as it is. -/

namespace MessageRelay.Library.Json

section
variable {α : Type} (build : Builder α) (range : Range)

/-- One member of an object, with its text: its name up to its value, its value, the space before the comma, and the
space after it. -/
structure Cell (n : Nat) where
  name : String
  value : α
  front : Text
  text : Text
  space : Text
  lead : Text
  named : ∃ nameSeg w w', front = nameSeg ++ (w ++ colon :: w') ∧ Quoted name nameSeg ∧ Space w ∧ Space w'
  derived : Derives build range n (.value value) text
  spaced : Space space
  led : Space lead

namespace Cell
variable {build range} {n : Nat}

def member (c : Cell build range n) : String × α := (c.name, c.value)

/-- Another value in the member's place. -/
def put (c : Cell build range n) (value : α) (text : Text) (derived : Derives build range n (.value value) text) :
    Cell build range n :=
  { c with value, text, derived }

/-- What follows a cell's value: the space, and the cells after it. -/
def after (c : Cell build range n) (rest : List (Cell build range n)) (text : Text) : Text :=
  if rest.isEmpty then c.space ++ text else c.space ++ comma :: (c.lead ++ text)

end Cell

variable {build range} {n : Nat}

/-- The cells' text, with a comma between one and the next. -/
def renderCells : List (Cell build range n) → Text → Text
  | [], tail => tail
  | c :: rest, tail => c.front ++ (c.text ++ c.after rest (renderCells rest tail))

theorem derives_cell (c : Cell build range n) : Derives build range n (.member c.member) (c.front ++ c.text) := by
  obtain ⟨nameSeg, w, w', front, quoted, space, space'⟩ := c.named
  have whole := Derives.member quoted space space' c.derived
  rw [front, Cell.member]
  simpa using whole

/-- Cells are derived as their members. -/
theorem derives_cells {cells : List (Cell build range n)} (some' : cells ≠ []) :
    ∃ seg, Derives build range n (.members (cells.map Cell.member)) seg ∧
      ∀ tail, renderCells cells tail = seg ++ tail := by
  induction cells with
  | nil => exact absurd rfl some'
  | cons c rest ih =>
    cases rest with
    | nil => exact ⟨_, .lastMember (derives_cell c) c.spaced, fun tail => by simp [renderCells, Cell.after]⟩
    | cons d more =>
      obtain ⟨seg, derived, rendered⟩ := ih (List.cons_ne_nil d more)
      refine ⟨_, .members (derives_cell c) c.spaced c.led derived, fun tail => ?_⟩
      rw [renderCells, rendered]
      simp [Cell.after]

theorem exists_cell {m : String × α} {seg w w' : Text} (derived : Derives build range n (.member m) seg)
    (space : Space w) (space' : Space w') :
    ∃ c : Cell build range n, c.member = m ∧ c.front ++ c.text = seg ∧ c.space = w ∧ c.lead = w' := by
  cases derived with
  | @member _ name v nameSeg a b seg quoted first second value =>
    exact ⟨⟨name, v, nameSeg ++ (a ++ colon :: b), seg, w, w', ⟨nameSeg, a, b, rfl, quoted, first, second⟩, value,
      space, space'⟩, rfl, by simp, rfl, rfl⟩

/-- The members of an object's text are cells. -/
theorem exists_cells {ms : List (String × α)} {seg : Text} (derived : Derives build range n (.members ms) seg) :
    ∃ cells : List (Cell build range n), cells ≠ [] ∧ cells.map Cell.member = ms ∧
      ∀ tail, renderCells cells tail = seg ++ tail := by
  generalize phrase : Phrase.members ms = p at derived
  induction derived generalizing ms with
  | lastMember member space =>
    cases phrase
    obtain ⟨c, same, text, spaced, -⟩ := exists_cell member space space_nil
    refine ⟨[c], List.cons_ne_nil _ _, by simp [same], fun tail => ?_⟩
    simp [renderCells, Cell.after, ← text, spaced]
  | members member space space' _ _ ih =>
    cases phrase
    obtain ⟨c, same, text, spaced, led⟩ := exists_cell member space space'
    obtain ⟨cells, some', members, rendered⟩ := ih rfl
    refine ⟨c :: cells, List.cons_ne_nil _ _, by simp [same, members], fun tail => ?_⟩
    obtain ⟨d, more, rfl⟩ := List.exists_cons_of_ne_nil some'
    rw [renderCells, rendered]
    simp [Cell.after, ← text, spaced, led]
  | null | bool | number | string | emptyArray | array | emptyObject | object | lastItem | item | member => cases phrase

end

end MessageRelay.Library.Json
