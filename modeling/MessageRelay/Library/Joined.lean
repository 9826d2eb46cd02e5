import Mathlib.Data.List.Basic

/-! Texts joined by a separator and cut at it again, a front that is taken whole because what is behind it stops, and a
text without the white space around it. -/

namespace MessageRelay.Library

section Joined
variable {α : Type}

theorem takeWhile_stop {p : α → Bool} {front back : List α} (all : ∀ x ∈ front, p x = true)
    (stop : ∀ x ∈ back.head?, p x = false) : (front ++ back).takeWhile p = front := by
  rw [List.takeWhile_append_of_pos all]
  cases back with
  | nil => simp
  | cons x rest => simp [stop x rfl]

theorem intercalate_cons (sep : α) (first : List α) (rest : List (List α)) :
    [sep].intercalate (first :: rest) = first ++ rest.flatMap (fun part => sep :: part) := by
  induction rest generalizing first with
  | nil => simp
  | cons next rest ih =>
    rw [List.intercalate_cons_cons, ih]
    simp

/-- Joined texts are cut between them and wherever one of them holds the separator. -/
theorem splitOn_joined [DecidableEq α] (sep : α) {parts : List (List α)} (written : parts ≠ []) :
    ([sep].intercalate parts).splitOn sep = parts.flatMap (fun part => part.splitOn sep) := by
  induction parts with
  | nil => exact absurd rfl written
  | cons first rest ih =>
    cases rest with
    | nil => simp
    | cons next later =>
      have joined := ih (List.cons_ne_nil _ _)
      rw [List.intercalate_cons_cons, List.append_assoc, List.singleton_append, List.splitOn_append_cons_self, joined]
      rfl

theorem splitOn_length [DecidableEq α] (sep : α) (text : List α) : 1 ≤ (text.splitOn sep).length :=
  List.length_pos_iff.mpr (List.splitOn_ne_nil sep text)

theorem splitOn_length_of_mem [DecidableEq α] {sep : α} {text : List α} (held : sep ∈ text) :
    2 ≤ (text.splitOn sep).length := by
  obtain ⟨front, back, rfl⟩ := List.append_of_mem held
  rw [List.splitOn_append_cons_self, List.length_append]
  exact Nat.add_le_add (splitOn_length sep front) (splitOn_length sep back)

/-- As many pieces as texts: no text was cut. -/
theorem uncut_of_length [DecidableEq α] {sep : α} {parts : List (List α)}
    (same : (parts.flatMap (fun part => part.splitOn sep)).length = parts.length) : ∀ part ∈ parts, sep ∉ part := by
  have least (parts : List (List α)) : parts.length ≤ (parts.flatMap (fun part => part.splitOn sep)).length := by
    induction parts with
    | nil => exact Nat.le_refl _
    | cons first rest ih =>
      have one := splitOn_length sep first
      rw [List.flatMap_cons, List.length_append, List.length_cons]
      omega
  induction parts with
  | nil => exact List.forall_mem_nil _
  | cons first rest ih =>
    have one := splitOn_length sep first
    have others := least rest
    rw [List.flatMap_cons, List.length_append, List.length_cons] at same
    refine List.forall_mem_cons.mpr ⟨fun held => ?_, ih (by omega)⟩
    have two := splitOn_length_of_mem held
    omega

theorem length_of_mapM {β ε : Type} {f : α → Except ε β} {parts : List α} {read : List β}
    (done : parts.mapM f = .ok read) : read.length = parts.length := by
  induction parts generalizing read with
  | nil =>
    cases done
    rfl
  | cons part rest ih =>
    rw [List.mapM_cons] at done
    cases first : f part with
    | error e =>
      rw [first] at done
      cases done
    | ok x =>
      cases later : rest.mapM f with
      | error e =>
        rw [first, later] at done
        cases done
      | ok xs =>
        rw [first, later] at done
        cases done
        exact congrArg (· + 1) (ih later)

theorem mapM_back {β ε : Type} {f : α → Except ε β} {g : β → α} (back : ∀ x, f (g x) = .ok x) (xs : List β) :
    (xs.map g).mapM f = .ok xs := by
  induction xs with
  | nil => rfl
  | cons x rest ih =>
    rw [List.map_cons, List.mapM_cons, back, ih]
    rfl

end Joined

/-- Unicode's White_Space. -/
def whiteSpace (c : Char) : Bool :=
  let n := c.toNat
  (9 ≤ n && n ≤ 13) || n = 32 || n = 0x85 || n = 0xa0 || n = 0x1680 || (0x2000 ≤ n && n ≤ 0x200a) || n = 0x2028 ||
    n = 0x2029 || n = 0x202f || n = 0x205f || n = 0x3000

def trim (s : List Char) : List Char := ((s.dropWhile whiteSpace).reverse.dropWhile whiteSpace).reverse

/-- A text without white space is left as it is. -/
theorem trim_of_solid {s : List Char} (solid : ∀ c ∈ s, whiteSpace c = false) : trim s = s := by
  have front (l : List Char) (solid : ∀ c ∈ l, whiteSpace c = false) : l.dropWhile whiteSpace = l := by
    cases l with
    | nil => rfl
    | cons first rest => rw [List.dropWhile_cons_of_neg (by simp [solid first List.mem_cons_self])]
  rw [trim, front _ solid, front _ (fun c member => solid c (List.mem_reverse.mp member)), List.reverse_reverse]

end MessageRelay.Library
