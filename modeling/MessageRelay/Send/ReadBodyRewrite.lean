import MessageRelay.Send.ReadBodyScan

/-! What is written over in a body's text, piece by piece: where each piece becomes the text of a value, so does the
whole. -/

namespace MessageRelay.Send
open MessageRelay.Lane MessageRelay.Library MessageRelay.Library.Json MessageRelay.Session MessageRelay.Payments

/-- The first span begins within the text. -/
def Within (spans : List Span) (text : Text) : Prop := ∀ span ∈ spans.head?, span.1.length ≤ text.length

theorem rewritten_append {spans : List Span} {rest : Text} (within : Within spans rest) (front : Text) :
    rewritten spans (front ++ rest) = front ++ rewritten spans rest := by
  cases spans with
  | nil => rfl
  | cons span later =>
    have inside := within span rfl
    have cut : (front ++ rest).length - span.1.length = front.length + (rest.length - span.1.length) := by
      rw [List.length_append]
      omega
    have before : slice (front ++ rest) span.1 = front ++ slice rest span.1 := by
      rw [slice, slice, cut, List.take_length_add_append]
    rw [rewritten, rewritten, before, List.append_assoc]

/-- The spans of a piece of text, whatever follows the piece, write the new text over the old. -/
structure Rewrites (spans : Text → List Span) (old new : Text) : Prop where
  within : ∀ later rest, Within later rest → Within (spans rest ++ later) (old ++ rest)
  writes : ∀ later rest, Within later rest →
    rewritten (spans rest ++ later) (old ++ rest) = new ++ rewritten later rest
  plain : ∀ rest, (spans rest).any isArraySpan = false → new = old

namespace Rewrites

theorem keep (text : Text) : Rewrites (fun _ => []) text text where
  within later rest inside := by
    intro span member
    have bound := inside span member
    rw [List.length_append]
    omega
  writes later rest inside := rewritten_append inside text
  plain _ _ := rfl

theorem append {spans spans' : Text → List Span} {old old' new new' : Text} (first : Rewrites spans old new)
    (second : Rewrites spans' old' new') :
    Rewrites (fun rest => spans (old' ++ rest) ++ spans' rest) (old ++ old') (new ++ new') where
  within later rest inside := by
    have whole := first.within _ _ (second.within later rest inside)
    simpa only [List.append_assoc] using whole
  writes later rest inside := by
    have both := first.writes _ _ (second.within later rest inside)
    rw [second.writes later rest inside] at both
    simpa only [List.append_assoc] using both
  plain rest none' := by
    rw [List.any_append, Bool.or_eq_false_iff] at none'
    rw [first.plain _ none'.1, second.plain _ none'.2]

/-- One span, of the piece itself. -/
theorem own {text : Text} (some' : text ≠ []) : Rewrites (fun rest => [(text ++ rest, rest)]) text (writtenTx text) where
  within later rest inside := by
    rintro span ⟨rfl⟩
    exact le_rfl
  writes later rest inside := by
    have none' : slice (text ++ rest) (text ++ rest) = [] := by simp [slice]
    rw [List.singleton_append, rewritten, none', List.nil_append, slice_append]
  plain rest other := by
    obtain ⟨b, more, rfl⟩ := List.exists_cons_of_ne_nil some'
    simp only [List.any_cons, List.any_nil, Bool.or_false, isArraySpan, List.cons_append, List.head?_cons] at other
    rw [writtenTx, List.head?_cons, if_neg (of_decide_eq_false other)]

end Rewrites

section
variable {range : Range}

theorem renderCells_append {n : Nat} (cells : List (Cell Value.builder range n)) (tail : Text) :
    renderCells cells tail = renderCells cells [] ++ tail := by
  induction cells with
  | nil => rfl
  | cons c rest ih =>
    rw [renderCells, renderCells, ih]
    simp only [Cell.after]
    split <;> simp

/-- The cells after a cell, without the text after the last. -/
theorem after_append {n : Nat} (c : Cell Value.builder range n) (rest : List (Cell Value.builder range n)) (tail : Text) :
    c.after rest (renderCells rest tail) = c.after rest (renderCells rest []) ++ tail := by
  rw [renderCells_append rest tail]
  simp only [Cell.after]
  split <;> simp

/-- The spans of a piece of text write over it the text of a value, and their last is an array's or not as told. -/
def Edits (range : Range) (n : Nat) (spans : Text → List Span) (old : Text) (v : Value) (last : Option Bool) : Prop :=
  ∃ new, Derives Value.builder range n (.value v) new ∧ Rewrites spans old new ∧
    ∀ rest, (spans rest).getLast?.map isArraySpan = last

/-- Cells each written over make the cells of the members written over. -/
theorem edits_cells {n : Nat} {edit : Member → List Span} {f : String × Value → Value}
    {last : String × Value → Option Bool} (cells : List (Cell Value.builder range n))
    (each : ∀ c : Cell Value.builder range n, Edits range n (fun rest => edit (scanned c rest)) c.text (f c.member)
      (last c.member)) :
    ∃ cells' : List (Cell Value.builder range n), cells'.length = cells.length ∧
      cells'.map Cell.member = (cells.map Cell.member).map (fun m => (m.1, f m)) ∧
      Rewrites (fun rest => (scannedCells cells rest).flatMap edit) (renderCells cells []) (renderCells cells' []) ∧
      ∀ rest, ((scannedCells cells rest).flatMap edit).getLast?.map isArraySpan =
        (cells.map Cell.member).reverse.findSome? last := by
  induction cells with
  | nil => exact ⟨[], rfl, rfl, .keep [], fun _ => rfl⟩
  | cons c rest ih =>
    obtain ⟨rest', length, members', rewrites, ended⟩ := ih
    obtain ⟨new, derived, written, own⟩ := each c
    have same (text : Text) : c.after rest' text = c.after rest text := by
      have empty : rest'.isEmpty = rest.isEmpty := by
        rw [Bool.eq_iff_iff, List.isEmpty_iff_length_eq_zero, List.isEmpty_iff_length_eq_zero, length]
      rw [Cell.after, Cell.after, empty]
    refine ⟨c.put (f c.member) new derived :: rest', by simp [length], ?_, ?_, fun tail => ?_⟩
    · simp [members', Cell.put, Cell.member]
    · have between : ∃ mid, ∀ text, c.after rest text = mid ++ text := by
        by_cases empty : rest.isEmpty = true
        · exact ⟨c.space, fun text => by simp [Cell.after, empty]⟩
        · exact ⟨c.space ++ comma :: c.lead, fun text => by simp [Cell.after, empty]⟩
      obtain ⟨mid, between⟩ := between
      have whole := (Rewrites.keep c.front).append (written.append ((Rewrites.keep mid).append rewrites))
      have old : renderCells (c :: rest) [] = c.front ++ (c.text ++ (mid ++ renderCells rest [])) := by
        rw [renderCells, between]
      have fresh : renderCells (c.put (f c.member) new derived :: rest') [] =
          c.front ++ (new ++ (mid ++ renderCells rest' [])) := by
        rw [renderCells]
        change c.front ++ (new ++ c.after rest' _) = _
        rw [same, between]
      rw [old, fresh]
      have spans : (fun tail => (scannedCells (c :: rest) tail).flatMap edit) =
          fun tail => [] ++ (edit (scanned c (mid ++ renderCells rest [] ++ tail)) ++
            ([] ++ (scannedCells rest tail).flatMap edit)) := by
        funext tail
        rw [scannedCells, List.flatMap_cons, after_append, between]
        rfl
      rw [spans]
      exact whole
    · rw [scannedCells, List.flatMap_cons, List.getLast?_append, List.map_cons, List.reverse_cons,
        List.findSome?_append, ← ended tail]
      have first := own (c.after rest (renderCells rest tail))
      cases ((scannedCells rest tail).flatMap edit).getLast? <;> simp [first]

theorem length_renderCells {n : Nat} (cells : List (Cell Value.builder range n)) (tail : Text) :
    cells.length ≤ (renderCells cells tail).length := by
  induction cells with
  | nil => exact Nat.zero_le _
  | cons c rest ih =>
    obtain ⟨nameSeg, w, w', front, -⟩ := c.named
    rw [renderCells, front]
    simp only [Cell.after, List.length_cons, List.length_append]
    split <;> simp only [List.length_cons, List.length_append] <;> omega

/-- The members scanned of an object's text are those of its cells. -/
theorem members_cells {n : Nat} {cells : List (Cell Value.builder range n)} (some' : cells ≠ []) {w : Text}
    (space : Space w) (rest : Text) :
    (members (openObject :: (w ++ renderCells cells (closeObject :: rest)))).1 =
      scannedCells cells (closeObject :: rest) := by
  have enough := length_renderCells cells (closeObject :: rest)
  have scanned := membersFrom_cells some' rest enough
  obtain ⟨c, more, rfl⟩ := List.exists_cons_of_ne_nil some'
  obtain ⟨nameSeg, u, u', front, ⟨inner, rfl, -⟩, -⟩ := c.named
  obtain ⟨after, rendered⟩ : ∃ after, renderCells (c :: more) (closeObject :: rest) = quote :: after := by
    rw [renderCells, front]
    exact ⟨_, rfl⟩
  have started := skipSpace_append space (b := quote) (by decide) after
  rw [rendered] at scanned ⊢
  rw [members, if_pos rfl, skipWs_eq, started]
  simp only [if_neg (by decide : quote ≠ closeObject)]
  rw [scanned]

/-- An object's text written over, member by member. -/
theorem edits_object {n : Nat} {v : Value} {seg : Text} (derived : Derives Value.builder range n (.value v) seg)
    (opens : seg.head? = some openObject) (edit : Member → List Span) (f : String × Value → Value)
    (last : String × Value → Option Bool)
    (each : ∀ {k : Nat} (c : Cell Value.builder range k), Edits range k (fun rest => edit (scanned c rest)) c.text
      (f c.member) (last c.member)) :
    ∃ ms, v = .object (Value.collect ms) ∧
      Edits range n (fun rest => (members (seg ++ rest)).1.flatMap edit) seg
        (.object (Value.collect (ms.map (fun m => (m.1, f m))))) (ms.reverse.findSome? last) := by
  generalize phrase : Phrase.value v = p at derived
  cases derived with
  | null => cases opens
  | @bool _ b => cases b <;> cases opens
  | number number =>
    have numeric := isNumber_numeric number
    obtain ⟨b, more, rfl, -⟩ := isNumber_head number
    cases opens
    exact absurd (numeric _ List.mem_cons_self) (by decide)
  | string quoted =>
    obtain ⟨inner, rfl, -⟩ := quoted
    cases opens
  | emptyArray | array => cases opens
  | @emptyObject n w space =>
    cases phrase
    have none' (rest : Text) : (members (openObject :: (w ++ [closeObject]) ++ rest)).1 = [] := by
      have ended := skipSpace_append space (b := closeObject) (by decide) rest
      rw [List.cons_append, List.append_assoc, members, if_pos rfl, skipWs_eq, List.singleton_append, ended]
      rfl
    refine ⟨[], rfl, _, .emptyObject space, ?_, fun rest => ?_⟩
    · simp only [none', List.flatMap_nil]
      exact .keep _
    · simp only [none', List.flatMap_nil]
      rfl
  | @object n w inside ms space members' =>
    cases phrase
    obtain ⟨cells, some', rfl, rendered⟩ := exists_cells members'
    obtain ⟨cells', length, written, rewrites, ended⟩ := edits_cells cells (fun c => each c)
    have some'' : cells' ≠ [] := by
      rw [← List.length_pos_iff, length, List.length_pos_iff]
      exact some'
    obtain ⟨inside', derived', rendered'⟩ := derives_cells some''
    have same : inside = renderCells cells [] := by rw [rendered, List.append_nil]
    have same' : inside' = renderCells cells' [] := by rw [rendered', List.append_nil]
    have scanned (rest : Text) : (members (openObject :: (w ++ (inside ++ [closeObject])) ++ rest)).1 =
        scannedCells cells (closeObject :: rest) := by
      rw [← members_cells some' space, rendered]
      simp
    rw [written] at derived'
    refine ⟨_, rfl, _, .object space derived', ?_, fun rest => ?_⟩
    · have whole := (Rewrites.keep (openObject :: w)).append (rewrites.append (.keep [closeObject]))
      simp only [scanned]
      rw [same, same']
      simpa using whole
    · simp only [scanned]
      exact ended _
  | lastItem | item | member | lastMember | members => cases phrase

end

end MessageRelay.Send
