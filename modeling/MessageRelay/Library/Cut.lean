import Mathlib

/-! The longest prefix of a list with at most so many items whose sizes add up to at most a budget,
and when two lists with a common front are cut to the same prefix. -/

namespace MessageRelay.Library

variable {α : Type} (size : α → Nat)

/-- So few items, together inside the budget. -/
def Fits (limit budget : Nat) (items : List α) : Prop :=
  items.length ≤ limit ∧ (items.map size).sum ≤ budget

instance (limit budget : Nat) (items : List α) : Decidable (Fits size limit budget items) :=
  inferInstanceAs (Decidable (_ ∧ _))

/-- A prefix that fits, and no longer one does. -/
structure LongestPrefix (limit budget : Nat) (items answer : List α) : Prop where
  part : answer <+: items
  fits : Fits size limit budget answer
  longest : ∀ other, other <+: items → Fits size limit budget other → other <+: answer

def cut : Nat → Nat → List α → List α
  | _, _, [] => []
  | 0, _, _ :: _ => []
  | limit + 1, budget, x :: rest =>
    if size x ≤ budget then x :: cut limit (budget - size x) rest else []

variable {size} {limit budget : Nat}

theorem Fits.sublist {items part : List α} (fits : Fits size limit budget items) (sub : part.Sublist items) :
    Fits size limit budget part :=
  ⟨sub.length_le.trans fits.1, (List.Sublist.sum_le_sum (sub.map size) (fun _ _ => Nat.zero_le _)).trans fits.2⟩

theorem fits_cons {x : α} {rest : List α} :
    Fits size (limit + 1) budget (x :: rest) ↔ size x ≤ budget ∧ Fits size limit (budget - size x) rest := by
  simp only [Fits, List.length_cons, List.map_cons, List.sum_cons]
  omega

theorem fits_cut (items : List α) : Fits size limit budget (cut size limit budget items) := by
  induction items generalizing limit budget with
  | nil => simp [cut, Fits]
  | cons x rest ih =>
    cases limit with
    | zero => simp [cut, Fits]
    | succ limit =>
      unfold cut
      split
      · rename_i inside
        exact fits_cons.mpr ⟨inside, ih⟩
      · simp [Fits]

theorem cut_front (items : List α) : cut size limit budget items <+: items := by
  induction items generalizing limit budget with
  | nil => simp [cut]
  | cons x rest ih =>
    cases limit with
    | zero => exact List.nil_prefix
    | succ limit =>
      unfold cut
      split
      · exact (List.prefix_cons_inj x).mpr ih
      · exact List.nil_prefix

theorem prefix_cut {items part : List α} (sub : part <+: items) (fits : Fits size limit budget part) :
    part <+: cut size limit budget items := by
  induction part generalizing limit budget items with
  | nil => exact List.nil_prefix
  | cons x rest ih =>
    cases items with
    | nil => cases List.prefix_nil.mp sub
    | cons y others =>
      obtain ⟨rfl, deeper⟩ := List.cons_prefix_cons.mp sub
      cases limit with
      | zero => exact absurd fits.1 (Nat.not_succ_le_zero _)
      | succ limit =>
        obtain ⟨inside, later⟩ := fits_cons.mp fits
        rw [cut, if_pos inside]
        exact (List.prefix_cons_inj x).mpr (ih deeper later)

theorem cut_map {β : Type} (f : β → α) (items : List β) :
    cut size limit budget (items.map f) = (cut (fun x => size (f x)) limit budget items).map f := by
  induction items generalizing limit budget with
  | nil => simp [cut]
  | cons x rest ih =>
    cases limit with
    | zero => rfl
    | succ limit =>
      simp only [List.map_cons, cut]
      split
      · rw [ih, List.map_cons]
      · rfl

/-- Sizes that agree on the items cut alike. -/
theorem cut_congr {other : α → Nat} {items : List α} (same : ∀ x ∈ items, size x = other x) :
    cut size limit budget items = cut other limit budget items := by
  induction items generalizing limit budget with
  | nil => simp [cut]
  | cons x rest ih =>
    cases limit with
    | zero => rfl
    | succ limit =>
      simp only [cut, same x (List.mem_cons_self ..)]
      rw [ih (fun y inside => same y (List.mem_cons_of_mem _ inside))]

theorem longestPrefix_iff {items answer : List α} :
    LongestPrefix size limit budget items answer ↔ answer = cut size limit budget items := by
  constructor
  · intro best
    apply List.IsPrefix.eq_of_length_le (prefix_cut best.part best.fits)
    exact (best.longest _ (cut_front items) (fits_cut items)).length_le
  · intro same
    subst same
    exact ⟨cut_front items, fits_cut items, fun other => prefix_cut⟩

theorem cut_eq_self {items : List α} (fits : Fits size limit budget items) : cut size limit budget items = items :=
  ((cut_front items).eq_of_length_le (prefix_cut List.prefix_rfl fits).length_le)

/-- A front that fits is kept, and what is left of the limit and the budget cuts the rest. -/
theorem cut_append {front : List α} (fits : Fits size limit budget front) (back : List α) :
    cut size limit budget (front ++ back) =
      front ++ cut size (limit - front.length) (budget - (front.map size).sum) back := by
  induction front generalizing limit budget with
  | nil => simp
  | cons x rest ih =>
    cases limit with
    | zero => exact absurd fits.1 (Nat.not_succ_le_zero _)
    | succ limit =>
      obtain ⟨inside, later⟩ := fits_cons.mp fits
      rw [List.cons_append, cut, if_pos inside, ih later]
      simp [Nat.sub_sub]

/-- Behind a front that does not fit nothing matters. -/
theorem cut_append_of_not_fits {front : List α} (tooMuch : ¬ Fits size limit budget front) (back : List α) :
    cut size limit budget (front ++ back) = cut size limit budget front := by
  apply longestPrefix_iff.mp
  refine ⟨?_, fits_cut _, fun other sub fits => ?_⟩
  · have short : (cut size limit budget (front ++ back)).length ≤ front.length := by
      by_contra longer
      have whole : front <+: cut size limit budget (front ++ back) :=
        List.prefix_of_prefix_length_le (List.prefix_append front back) (cut_front _) (by omega)
      exact tooMuch ((fits_cut _).sublist whole.sublist)
    exact List.prefix_of_prefix_length_le (cut_front _) (List.prefix_append front back) short
  · exact prefix_cut (sub.trans (List.prefix_append front back)) fits

/-- A cut made before is not seen after a front. -/
theorem cut_append_cut (front back : List α) :
    cut size limit budget (front ++ cut size limit budget back) = cut size limit budget (front ++ back) := by
  by_cases fits : Fits size limit budget front
  · rw [cut_append fits, cut_append fits]
    congr 1
    apply longestPrefix_iff.mp
    refine ⟨(cut_front _).trans (cut_front _), fits_cut _, fun other sub inside => ?_⟩
    refine prefix_cut (prefix_cut sub ⟨inside.1.trans (Nat.sub_le ..), inside.2.trans (Nat.sub_le ..)⟩) inside
  · rw [cut_append_of_not_fits fits, cut_append_of_not_fits fits]

theorem fits_snoc {front : List α} (fits : Fits size limit budget front) (x : α) :
    Fits size limit budget (front ++ [x]) ↔
      1 ≤ limit - front.length ∧ size x ≤ budget - (front.map size).sum := by
  obtain ⟨few, small⟩ := fits
  simp only [Fits, List.length_append, List.map_append, List.sum_append, List.length_singleton, List.map_cons,
    List.map_nil, List.sum_singleton]
  omega

theorem cut_cons_nil_iff (x : α) (rest : List α) :
    cut size limit budget (x :: rest) = [] ↔ ¬ (1 ≤ limit ∧ size x ≤ budget) := by
  cases limit with
  | zero => simp [cut]
  | succ limit => simp [cut]

/-- Two continuations of a front that differ at once are cut alike only where neither is reached. -/
theorem cut_agree_iff (front : List α) {one two : List α} (apart : ∀ x ∈ one.head?, ∀ y ∈ two.head?, x ≠ y) :
    cut size limit budget (front ++ one) = cut size limit budget (front ++ two) ↔
      (∀ x ∈ one.head?, ¬ Fits size limit budget (front ++ [x])) ∧
        ∀ y ∈ two.head?, ¬ Fits size limit budget (front ++ [y]) := by
  by_cases fits : Fits size limit budget front
  · rw [cut_append fits, cut_append fits, List.append_cancel_left_eq]
    simp only [fits_snoc fits]
    generalize limit - front.length = left
    generalize budget - (front.map size).sum = room
    cases one with
    | nil =>
      cases two with
      | nil => simp [cut]
      | cons y rest =>
        have none : cut size left room ([] : List α) = [] := by simp [cut]
        rw [none, eq_comm, cut_cons_nil_iff]
        simp
    | cons x rest =>
      cases two with
      | nil =>
        have none : cut size left room ([] : List α) = [] := by simp [cut]
        rw [none, cut_cons_nil_iff]
        simp
      | cons y others =>
        have differ : x ≠ y := apart x rfl y rfl
        simp only [List.head?_cons, Option.mem_some_iff, forall_eq']
        rw [← cut_cons_nil_iff x rest, ← cut_cons_nil_iff y others]
        constructor
        · intro same
          -- A kept first item would be both heads.
          cases left with
          | zero => simp [cut]
          | succ left =>
            unfold cut at same ⊢
            split at same
            · split at same
              · exact absurd (List.cons.inj same).1 differ
              · cases same
            · split at same
              · cases same
              · simp_all
        · rintro ⟨first, second⟩
          rw [first, second]
  · rw [cut_append_of_not_fits fits, cut_append_of_not_fits fits]
    have beyond (x : α) : ¬ Fits size limit budget (front ++ [x]) :=
      fun inside => fits (inside.sublist (List.sublist_append_left _ _))
    simp [beyond]

/-- What stands behind is not seen exactly where its first item does not fit. -/
theorem cut_append_same_iff (front behind : List α) :
    cut size limit budget front = cut size limit budget (front ++ behind) ↔
      ∀ x ∈ behind.head?, ¬ Fits size limit budget (front ++ [x]) := by
  have apart : ∀ x ∈ ([] : List α).head?, ∀ y ∈ behind.head?, x ≠ y := by simp
  have agree : cut size limit budget (front ++ []) = cut size limit budget (front ++ behind) ↔ _ :=
    cut_agree_iff front apart
  simpa using agree

/-- The first item a cut leaves out does not fit. -/
theorem cut_next {items : List α} (tooMuch : ¬ Fits size limit budget items) :
    ∃ x rest, items = cut size limit budget items ++ x :: rest ∧
      ¬ Fits size limit budget (cut size limit budget items ++ [x]) := by
  obtain ⟨rest, whole⟩ : cut size limit budget items <+: items := cut_front items
  cases rest with
  | nil =>
    rw [List.append_nil] at whole
    exact absurd (whole ▸ fits_cut items) tooMuch
  | cons x rest =>
    refine ⟨x, rest, whole.symm, fun fits => ?_⟩
    have part : cut size limit budget items ++ [x] <+: items := ⟨rest, by simpa using whole⟩
    have longer := (prefix_cut part fits).length_le
    simp at longer

end MessageRelay.Library
