import MessageRelay.Mailbox.Store

/-! How far a listing reaches: the rows inside a byte budget, and the merge of two sides. -/

namespace MessageRelay.Mailbox

section Budget
variable {α : Type} (size : α → Nat) (budget : Nat)

theorem withinBudget_sublist (upto : Nat) (rows : List α) : (withinBudget size budget upto rows).Sublist rows := by
  induction rows generalizing upto with
  | nil => exact List.Sublist.refl _
  | cons r rest ih =>
    unfold withinBudget
    split
    · exact (ih _).cons_cons r
    · exact (ih _).cons r

/-- A row the budget reaches is kept with everything ahead of it. -/
theorem withinBudget_reaches (ahead : List α) (row : α) (behind : List α) (upto : Nat)
    (reached : upto + (ahead.map size).sum + size row ≤ budget) :
    ∃ rest, withinBudget size budget upto (ahead ++ row :: behind) = ahead ++ row :: rest := by
  induction ahead generalizing upto with
  | nil =>
    simp only [List.map_nil, List.sum_nil, Nat.add_zero] at reached
    refine ⟨withinBudget size budget (upto + size row) behind, ?_⟩
    rw [List.nil_append, List.nil_append, withinBudget, if_pos reached]
  | cons r rest ih =>
    simp only [List.map_cons, List.sum_cons] at reached
    have inside : upto + size r ≤ budget := by omega
    obtain ⟨kept, equal⟩ := ih (upto + size r) (by omega)
    exact ⟨kept, by rw [List.cons_append, withinBudget, if_pos inside, equal, List.cons_append]⟩

theorem take_withinBudget_reaches (limit : Nat) (ahead : List α) (row : α) (behind : List α)
    (near : ahead.length < limit) (reached : (ahead.map size).sum + size row ≤ budget) :
    ∃ rest, withinBudget size budget 0 ((ahead ++ row :: behind).take limit) = ahead ++ row :: rest := by
  obtain ⟨k, rfl⟩ : ∃ k, limit = ahead.length + (k + 1) := ⟨limit - ahead.length - 1, by omega⟩
  have cut : (ahead ++ row :: behind).take (ahead.length + (k + 1)) = ahead ++ row :: behind.take k := by
    rw [List.take_length_add_append, List.take_succ_cons]
  rw [cut]
  exact withinBudget_reaches size budget ahead row _ 0 (by omega)

end Budget

theorem mem_mergeLoop_of_mem {limit inlineBytes : Nat} {rows out : List MessageDbRow} {ids : List String}
    {upto : Nat} {row : MessageDbRow} (taken : row ∈ out) : row ∈ mergeLoop limit inlineBytes rows ids upto out := by
  induction rows generalizing ids upto out with
  | nil => exact taken
  | cons r rest ih =>
    unfold mergeLoop
    split
    · exact taken
    · split
      · split
        · exact ih taken
        · split
          · exact taken
          · exact ih (List.mem_append_left _ taken)
      · split
        · exact taken
        · exact ih (List.mem_append_left _ taken)

theorem of_mem_mergeLoop {limit inlineBytes : Nat} {rows out : List MessageDbRow} {ids : List String} {upto : Nat}
    {row : MessageDbRow} (merged : row ∈ mergeLoop limit inlineBytes rows ids upto out) : row ∈ out ∨ row ∈ rows := by
  induction rows generalizing ids upto out with
  | nil => exact .inl merged
  | cons r rest ih =>
    -- Where the row is taken, it stands behind those taken before it.
    have taken (later : row ∈ out ++ [r] ∨ row ∈ rest) : row ∈ out ∨ row ∈ r :: rest := by
      simpa [or_assoc] using later
    unfold mergeLoop at merged
    split at merged
    · exact .inl merged
    · split at merged
      · split at merged
        · exact (ih merged).imp_right (List.mem_cons_of_mem r)
        · split at merged
          · exact .inl merged
          · exact taken (ih merged)
      · split at merged
        · exact .inl merged
        · exact taken (ih merged)

/-- A row is merged when no id comes twice and the limit and the budget reach it. -/
theorem mem_mergeLoop {limit inlineBytes : Nat} {ahead behind out : List MessageDbRow} {row : MessageDbRow}
    {ids : List String} {upto : Nat}
    (once : ((ahead ++ row :: behind).filterMap MessageDbRow.messageId).Nodup)
    (new : ∀ id ∈ (ahead ++ row :: behind).filterMap MessageDbRow.messageId, id ∉ ids)
    (near : out.length + ahead.length < limit)
    (reached : upto + (ahead.map bodyLength).sum + bodyLength row ≤ inlineBytes) :
    row ∈ mergeLoop limit inlineBytes (ahead ++ row :: behind) ids upto out := by
  induction ahead generalizing ids upto out with
  | nil =>
    simp only [List.length_nil, List.map_nil, List.sum_nil, Nat.add_zero, List.nil_append] at *
    unfold mergeLoop
    rw [if_neg (by omega)]
    cases named : row.messageId with
    | none =>
      simp only
      rw [if_neg (by omega)]
      exact mem_mergeLoop_of_mem (List.mem_append_right _ (List.mem_singleton.mpr rfl))
    | some id =>
      simp only
      rw [if_neg (new id (by simp [named])), if_neg (by omega)]
      exact mem_mergeLoop_of_mem (List.mem_append_right _ (List.mem_singleton.mpr rfl))
  | cons r rest ih =>
    simp only [List.length_cons, List.map_cons, List.sum_cons, List.cons_append] at *
    unfold mergeLoop
    rw [if_neg (by omega)]
    cases named : r.messageId with
    | none =>
      simp only
      rw [if_neg (by omega)]
      simp only [List.filterMap_cons, named] at once new
      exact ih once new (by simp; omega) (by omega)
    | some id =>
      simp only [List.filterMap_cons, named, List.nodup_cons, List.mem_cons, forall_eq_or_imp] at once new
      simp only
      rw [if_neg new.1, if_neg (by omega)]
      refine ih once.2 (fun other inside => ?_) (by simp; omega) (by omega)
      simp only [List.mem_cons, not_or]
      exact ⟨fun same => once.1 (same ▸ inside), new.2 other inside⟩

end MessageRelay.Mailbox
