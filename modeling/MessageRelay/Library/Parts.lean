import Mathlib.Data.List.Basic

/-! A sequence cut into parts of one size, the last one shorter: however it comes in, the parts are those of the whole. -/

namespace MessageRelay.Library

variable {α : Type}

/-- The full parts of a sequence, from its front. -/
def fullParts (size : Nat) : Nat → List α → List (List α)
  | 0, _ => []
  | n + 1, l => l.take size :: fullParts size n (l.drop size)

/-- The full parts that fit. -/
def wholeParts (size : Nat) (l : List α) : List (List α) := fullParts size (l.length / size) l

/-- What is behind them, shorter than a part. -/
def lastPart (size : Nat) (l : List α) : List α := l.drop (l.length / size * size)

def allParts (size : Nat) (l : List α) : List (List α) :=
  wholeParts size l ++ if lastPart size l = [] then [] else [lastPart size l]

theorem wholeParts_short {size : Nat} {l : List α} (short : l.length < size) : wholeParts size l = [] := by
  rw [wholeParts, Nat.div_eq_of_lt short, fullParts]

theorem lastPart_short {size : Nat} {l : List α} (short : l.length < size) : lastPart size l = l := by
  rw [lastPart, Nat.div_eq_of_lt short, Nat.zero_mul, List.drop_zero]

theorem allParts_short {size : Nat} {l : List α} (short : l.length < size) (some' : l ≠ []) : allParts size l = [l] := by
  rw [allParts, wholeParts_short short, lastPart_short short, if_neg some', List.nil_append]

@[simp] theorem allParts_nil (size : Nat) : allParts size ([] : List α) = [] := by
  simp [allParts, wholeParts, lastPart, fullParts]

theorem fullParts_length (size n : Nat) (l : List α) : (fullParts size n l).length = n := by
  induction n generalizing l with
  | zero => rfl
  | succ n ih => rw [fullParts, List.length_cons, ih]

variable {size : Nat} (positive : 0 < size)
include positive

theorem div_of_long {l : List α} (long : size ≤ l.length) : l.length / size = (l.drop size).length / size + 1 := by
  rw [List.length_drop, Nat.div_eq_sub_div positive long]

theorem wholeParts_long {l : List α} (long : size ≤ l.length) :
    wholeParts size l = l.take size :: wholeParts size (l.drop size) := by
  rw [wholeParts, div_of_long positive long, fullParts, wholeParts]

theorem lastPart_long {l : List α} (long : size ≤ l.length) : lastPart size l = lastPart size (l.drop size) := by
  rw [lastPart, div_of_long positive long, lastPart, List.drop_drop, Nat.succ_mul, Nat.add_comm]

theorem lastPart_length (l : List α) : (lastPart size l).length < size := by
  rw [lastPart, List.length_drop, Nat.mul_comm]
  have whole := Nat.div_add_mod l.length size
  have less := Nat.mod_lt l.length positive
  omega

/-- What the parts hold, and that all but the last are full. -/
theorem wholeParts_flatten (l : List α) : (wholeParts size l).flatten ++ lastPart size l = l ∧
    ∀ part ∈ wholeParts size l, part.length = size := by
  induction steps : l.length using Nat.strongRecOn generalizing l with
  | ind n ih =>
    by_cases long : size ≤ l.length
    · have fewer : (l.drop size).length < n := by
        rw [List.length_drop]
        omega
      obtain ⟨whole, sized⟩ := ih _ fewer (l.drop size) rfl
      rw [wholeParts_long positive long, lastPart_long positive long, List.flatten_cons, List.append_assoc, whole]
      refine ⟨List.take_append_drop size l, fun part member => ?_⟩
      rcases List.mem_cons.mp member with rfl | later
      · rw [List.length_take]
        omega
      · exact sized part later
    · rw [wholeParts_short (Nat.lt_of_not_le long), lastPart_short (Nat.lt_of_not_le long)]
      exact ⟨rfl, fun part member => absurd member List.not_mem_nil⟩

/-- The parts of what comes in two pieces are those of the first, then those of what it left with the second. -/
theorem wholeParts_append (a b : List α) :
    wholeParts size (a ++ b) = wholeParts size a ++ wholeParts size (lastPart size a ++ b) ∧
      lastPart size (a ++ b) = lastPart size (lastPart size a ++ b) := by
  induction steps : a.length using Nat.strongRecOn generalizing a with
  | ind n ih =>
    by_cases long : size ≤ a.length
    · have fewer : (a.drop size).length < n := by
        rw [List.length_drop]
        omega
      obtain ⟨parts, last⟩ := ih _ fewer (a.drop size) rfl
      have longer : size ≤ (a ++ b).length := by
        rw [List.length_append]
        omega
      rw [wholeParts_long positive longer, lastPart_long positive longer, wholeParts_long positive long,
        lastPart_long positive long, List.take_append_of_le_length long, List.drop_append_of_le_length long, parts, last]
      exact ⟨rfl, rfl⟩
    · rw [wholeParts_short (Nat.lt_of_not_le long), lastPart_short (Nat.lt_of_not_le long)]
      exact ⟨rfl, rfl⟩

theorem allParts_long {l : List α} (long : size ≤ l.length) :
    allParts size l = l.take size :: allParts size (l.drop size) := by
  rw [allParts, wholeParts_long positive long, lastPart_long positive long, List.cons_append, allParts]

theorem allParts_append (a b : List α) :
    allParts size (a ++ b) = wholeParts size a ++ allParts size (lastPart size a ++ b) := by
  obtain ⟨parts, last⟩ := wholeParts_append positive a b
  rw [allParts, parts, last, List.append_assoc, allParts]

theorem allParts_flatten (l : List α) : (allParts size l).flatten = l := by
  have whole := (wholeParts_flatten positive l).1
  rw [allParts, List.flatten_append]
  split
  · rename_i nothing
    rwa [nothing] at whole
  · simpa using whole

theorem allParts_full (l : List α) : ∀ part ∈ (allParts size l).dropLast, part.length = size := by
  have full := (wholeParts_flatten positive l).2
  intro part member
  rw [allParts] at member
  split at member
  · rw [List.append_nil] at member
    exact full part (List.dropLast_subset _ member)
  · rw [List.dropLast_concat] at member
    exact full part member

omit positive in
theorem allParts_few {l : List α} {n : Nat} (bound : l.length ≤ n * size) : (allParts size l).length ≤ n := by
  have count : l.length / size ≤ n := Nat.div_le_of_le_mul (by rwa [Nat.mul_comm])
  rw [allParts, List.length_append, wholeParts, fullParts_length]
  split
  · exact count
  · rename_i behind
    have less : l.length / size < n := by
      apply Nat.lt_of_le_of_ne count
      intro equal
      apply behind
      rw [lastPart, equal]
      exact List.drop_eq_nil_of_le bound
    rw [List.length_singleton]
    omega

end MessageRelay.Library
