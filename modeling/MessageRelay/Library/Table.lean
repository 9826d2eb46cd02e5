import Mathlib

/-! Tables of rows under a unique key, kept in insertion order. The uniqueness constraint is a
field, so no operation can build a table that breaks it. -/

namespace MessageRelay.Library

/-- Rows in insertion order, at most one of them under each key. -/
structure Table {Row Key : Type} (key : Row → Key) where
  rows : List Row
  unique : (rows.map key).Nodup

namespace Table

variable {Row Key : Type} {key : Row → Key}

def empty : Table key := ⟨[], by simp⟩

/-- Delete the rows that fail the test. -/
def keep (t : Table key) (p : Row → Bool) : Table key :=
  ⟨t.rows.filter p, (List.filter_sublist.map key).nodup t.unique⟩

/-- Rewrite every row, leaving the keys alone. -/
def map (t : Table key) (f : Row → Row) (keeps : ∀ r, key (f r) = key r) : Table key where
  rows := t.rows.map f
  unique := by
    have same : (t.rows.map f).map key = t.rows.map key := by
      rw [List.map_map]
      exact List.map_congr_left (fun r _ => keeps r)
    rw [same]
    exact t.unique

variable [DecidableEq Key]

def find? (t : Table key) (k : Key) : Option Row :=
  t.rows.find? (fun r => decide (key r = k))

/-- Rewrite the row under a key, leaving its key alone. -/
def modify (t : Table key) (k : Key) (f : Row → Row) (keeps : ∀ r, key (f r) = key r) : Table key :=
  t.map (fun r => if key r = k then f r else r) (by
    intro r
    split
    · exact keeps r
    · rfl)

theorem find?_eq_none (t : Table key) (k : Key) : t.find? k = none ↔ ∀ r ∈ t.rows, key r ≠ k := by
  simp [find?]

theorem find?_eq_some (t : Table key) (k : Key) (r : Row) :
    t.find? k = some r ↔ r ∈ t.rows ∧ key r = k := by
  constructor
  · intro found
    exact ⟨List.mem_of_find?_eq_some found, by simpa using List.find?_some found⟩
  · rintro ⟨member, named⟩
    cases found : t.find? k with
    | none => exact absurd named ((t.find?_eq_none k).mp found r member)
    | some other =>
      have holds : other ∈ t.rows ∧ key other = k :=
        ⟨List.mem_of_find?_eq_some found, by simpa using List.find?_some found⟩
      have same := List.inj_on_of_nodup_map t.unique holds.1 member (holds.2.trans named.symm)
      rw [same]

theorem key_of_find? {t : Table key} {k : Key} {r : Row} (found : t.find? k = some r) : key r = k :=
  ((t.find?_eq_some k r).mp found).2

/-- Insert a row unless its key is taken. -/
def insertIgnore (t : Table key) (r : Row) : Table key :=
  if free : t.find? (key r) = none then
    ⟨t.rows ++ [r], by
      have absent := (t.find?_eq_none (key r)).mp free
      simp only [List.map_append, List.map_cons, List.map_nil, List.nodup_append, List.nodup_cons,
        List.not_mem_nil, not_false_eq_true, List.nodup_nil, and_self, List.mem_map, List.mem_cons,
        or_false]
      refine ⟨t.unique, trivial, ?_⟩
      rintro _ ⟨other, member, rfl⟩ _ rfl
      exact absent other member⟩
  else t

@[simp] theorem find?_empty (k : Key) : (empty : Table key).find? k = none := rfl

theorem rows_insertIgnore (t : Table key) (r : Row) :
    (t.insertIgnore r).rows = if t.find? (key r) = none then t.rows ++ [r] else t.rows := by
  unfold insertIgnore
  split <;> rfl

theorem find?_insertIgnore (t : Table key) (r : Row) (k : Key) :
    (t.insertIgnore r).find? k = if key r = k then some ((t.find? k).getD r) else t.find? k := by
  unfold find?
  rw [rows_insertIgnore]
  by_cases named : key r = k
  · subst named
    cases found : t.find? (key r) with
    | none =>
      have absent : t.rows.find? (fun other => decide (key other = key r)) = none := found
      simp [absent]
    | some other =>
      have present : t.rows.find? (fun other => decide (key other = key r)) = some other := found
      simp [present]
  · by_cases free : t.find? (key r) = none <;> simp [free, named, List.find?_append]

theorem find?_map (t : Table key) (f : Row → Row) (keeps : ∀ r, key (f r) = key r) (k : Key) :
    (t.map f keeps).find? k = (t.find? k).map f := by
  have test : (fun r => decide (key r = k)) ∘ f = fun r => decide (key r = k) := by
    funext r
    simp only [Function.comp_apply, keeps]
  simp only [find?, map, List.find?_map, test]

theorem find?_modify (t : Table key) (k : Key) (f : Row → Row) (keeps : ∀ r, key (f r) = key r)
    (k' : Key) :
    (t.modify k f keeps).find? k' = if k' = k then (t.find? k').map f else t.find? k' := by
  rw [modify, find?_map]
  cases found : t.find? k' with
  | none => simp
  | some r =>
    have named := key_of_find? found
    by_cases aimed : k' = k <;> simp [named, aimed]

theorem find?_keep (t : Table key) (p : Row → Bool) (k : Key) :
    (t.keep p).find? k = (t.find? k).filter p := by
  cases found : t.find? k with
  | none =>
    have absent := (t.find?_eq_none k).mp found
    rw [Option.filter_none, find?_eq_none]
    intro r member
    exact absent r (List.mem_of_mem_filter member)
  | some r =>
    have holds := (t.find?_eq_some k r).mp found
    by_cases kept : p r = true
    · rw [Option.filter_some_pos kept, find?_eq_some]
      exact ⟨List.mem_filter.mpr ⟨holds.1, kept⟩, holds.2⟩
    · rw [Option.filter_some_neg (by simpa using kept), find?_eq_none]
      intro other member named
      obtain ⟨inside, passes⟩ := List.mem_filter.mp member
      have same := (t.find?_eq_some k other).mpr ⟨inside, named⟩
      rw [found, Option.some.injEq] at same
      exact kept (same ▸ passes)

/-- Insert a row in the place of the one under its key. -/
def upsert (t : Table key) (r : Row) : Table key :=
  (t.keep (fun other => key other ≠ key r)).insertIgnore r

theorem find?_delete (t : Table key) (k k' : Key) :
    (t.keep (fun r => key r ≠ k)).find? k' = if k = k' then none else t.find? k' := by
  rw [find?_keep]
  cases found : t.find? k' with
  | none => simp
  | some r =>
    have named := key_of_find? found
    by_cases aimed : k = k'
    · simp [Option.filter, named, aimed]
    · simp [Option.filter, named, aimed, Ne.symm aimed]

theorem find?_upsert (t : Table key) (r : Row) (k : Key) :
    (t.upsert r).find? k = if key r = k then some r else t.find? k := by
  rw [upsert, find?_insertIgnore, find?_delete]
  split <;> rfl

theorem rows_upsert (t : Table key) (r : Row) :
    (t.upsert r).rows = t.rows.filter (fun other => key other ≠ key r) ++ [r] := by
  rw [upsert, rows_insertIgnore, if_pos]
  · rfl
  · rw [find?_delete, if_pos rfl]

/-- The row under a key with what stands before and after it, which has other keys. -/
theorem find?_split {t : Table key} {k : Key} {r : Row} (found : t.find? k = some r) :
    ∃ front back, t.rows = front ++ r :: back ∧ (∀ x ∈ front, key x ≠ k) ∧ ∀ x ∈ back, key x ≠ k := by
  obtain ⟨member, named⟩ := (t.find?_eq_some k r).mp found
  obtain ⟨front, back, whole⟩ := List.append_of_mem member
  have unique := t.unique
  rw [whole, List.map_append, List.map_cons, List.nodup_append, List.nodup_cons] at unique
  refine ⟨front, back, whole, fun x inside same => ?_, fun x inside same => ?_⟩
  · exact unique.2.2 _ (List.mem_map_of_mem inside) _ (List.mem_cons_self ..) (same.trans named.symm)
  · exact unique.2.1.1 (List.mem_map.mpr ⟨x, inside, same.trans named.symm⟩)

theorem modify_absent {t : Table key} {k : Key} (absent : t.find? k = none) (f : Row → Row)
    (keeps : ∀ r, key (f r) = key r) : t.modify k f keeps = t := by
  have other := (t.find?_eq_none k).mp absent
  have still : (t.modify k f keeps).rows = t.rows := by
    simp only [modify, map]
    rw [List.map_congr_left (fun r member => if_neg (other r member)), List.map_id']
  cases t
  simpa [modify, map] using still

/-- A key's rows that pass a test are its one row, or none. -/
theorem length_filter_key (t : Table key) (k : Key) (p : Row → Bool) :
    (t.rows.filter (fun r => decide (key r = k) && p r)).length = if (t.find? k).any p then 1 else 0 := by
  cases found : t.find? k with
  | none =>
    have absent := (t.find?_eq_none k).mp found
    rw [List.filter_eq_nil_iff.mpr (fun r member => by simp [absent r member])]
    rfl
  | some r =>
    obtain ⟨front, back, whole, before, after⟩ := find?_split found
    have none (part : List Row) (other : ∀ x ∈ part, key x ≠ k) :
        part.filter (fun x => decide (key x = k) && p x) = [] :=
      List.filter_eq_nil_iff.mpr (fun x inside => by simp [other x inside])
    rw [whole, List.filter_append, none front before, List.filter_cons, none back after, key_of_find? found]
    cases passes : p r <;> simp [passes]

section Sum
variable {Amount : Type} [AddCommMonoid Amount] (amount : Row → Amount)

theorem sum_insertIgnore {t : Table key} {r : Row} (free : t.find? (key r) = none) :
    ((t.insertIgnore r).rows.map amount).sum = (t.rows.map amount).sum + amount r := by
  rw [rows_insertIgnore, if_pos free]
  simp

/-- A rewritten row takes its old amount out of a sum and puts its new one in. -/
theorem sum_modify {t : Table key} {k : Key} {r : Row} (found : t.find? k = some r) (f : Row → Row)
    (keeps : ∀ r, key (f r) = key r) :
    ((t.modify k f keeps).rows.map amount).sum + amount r = (t.rows.map amount).sum + amount (f r) := by
  obtain ⟨front, back, whole, before, after⟩ := find?_split found
  have named := key_of_find? found
  have still (part : List Row) (other : ∀ x ∈ part, key x ≠ k) :
      part.map (fun x => if key x = k then f x else x) = part := by
    rw [List.map_congr_left (fun x inside => if_neg (other x inside)), List.map_id']
  simp only [modify, map, whole, List.map_append, List.map_cons, still front before, still back after, named,
    if_true, List.sum_append, List.sum_cons]
  abel

/-- A deleted row takes its amount with it. -/
theorem sum_keep {t : Table key} {k : Key} {r : Row} (found : t.find? k = some r) :
    ((t.keep (fun x => key x ≠ k)).rows.map amount).sum + amount r = (t.rows.map amount).sum := by
  obtain ⟨front, back, whole, before, after⟩ := find?_split found
  have named := key_of_find? found
  have still (part : List Row) (other : ∀ x ∈ part, key x ≠ k) : part.filter (fun x => decide (key x ≠ k)) = part :=
    List.filter_eq_self.mpr (fun x inside => decide_eq_true (other x inside))
  simp only [keep, whole, List.filter_append, still front before, List.map_append, List.sum_append, List.map_cons,
    List.sum_cons]
  rw [List.filter_cons_of_neg (by simp [named]), still back after]
  abel

end Sum

end Table

end MessageRelay.Library
