import Mathlib

/-! SQLite's `LIKE` with a backslash as its escape, and the patterns of an escaped text. A text ends at its first NUL,
and ASCII letters match in either case. -/

namespace MessageRelay.Library

/-- An ASCII letter in lower case; any other character as it is. -/
def lowerAscii (c : Char) : Char := if 'A' ≤ c ∧ c ≤ 'Z' then Char.ofNat (c.toNat + 32) else c

/-- The same character, or the same ASCII letter. -/
def sameLetter (a b : Char) : Bool := a = b || (a.toNat < 128 && b.toNat < 128 && lowerAscii a = lowerAscii b)

def nul : Char := Char.ofNat 0

/-- The text up to its first NUL. -/
def cText (s : List Char) : List Char := s.takeWhile (· ≠ nul)

/-- A pattern against a text, both without NUL. -/
def matchPattern : List Char → List Char → Bool
  | [], s => s.isEmpty
  | '%' :: p, s => s.tails.any (matchPattern p)
  | ['\\'], _ => false
  | '\\' :: c :: p, d :: s => sameLetter c d && matchPattern p s
  | '_' :: p, _ :: s => matchPattern p s
  | c :: p, d :: s => sameLetter c d && matchPattern p s
  | _ :: _, [] => false

/-- `text LIKE pattern ESCAPE '\'`. -/
def like (pattern text : List Char) : Bool := matchPattern (cText pattern) (cText text)

/-- A backslash before every metacharacter. -/
def escapeLike (p : List Char) : List Char :=
  p.flatMap (fun c => if c = '\\' ∨ c = '%' ∨ c = '_' then ['\\', c] else [c])

def foldCase (s : List Char) : List Char := s.map lowerAscii

theorem lowerAscii_of_le {c : Char} (ascii : 128 ≤ c.toNat) : lowerAscii c = c := by
  refine if_neg (fun letter => ?_)
  have high : c.toNat ≤ 90 := letter.2
  omega

theorem toNat_lowerAscii_lt {c : Char} (ascii : c.toNat < 128) : (lowerAscii c).toNat < 128 := by
  unfold lowerAscii
  split
  · rename_i letter
    have high : c.toNat ≤ 90 := letter.2
    rw [Char.toNat_ofNat, if_pos (by simp [Nat.isValidChar]; omega)]
    omega
  · exact ascii

theorem sameLetter_eq (a b : Char) : sameLetter a b = decide (lowerAscii a = lowerAscii b) := by
  rw [Bool.eq_iff_iff, sameLetter, Bool.or_eq_true, Bool.and_eq_true, Bool.and_eq_true]
  simp only [decide_eq_true_eq]
  constructor
  · rintro (rfl | ⟨-, same⟩)
    · rfl
    · exact same
  · intro same
    by_cases first : a.toNat < 128 <;> by_cases second : b.toNat < 128
    · exact .inr ⟨⟨first, second⟩, same⟩
    · have ascii := toNat_lowerAscii_lt first
      rw [same, lowerAscii_of_le (by omega)] at ascii
      omega
    · have ascii := toNat_lowerAscii_lt second
      rw [← same, lowerAscii_of_le (by omega)] at ascii
      omega
    · rw [lowerAscii_of_le (by omega), lowerAscii_of_le (by omega)] at same
      exact .inl same

theorem matchPattern_any (s : List Char) : matchPattern ['%'] s = true := by
  rw [matchPattern, List.any_eq_true]
  exact ⟨[], by simp, rfl⟩

/-- An escaped character matches itself. -/
theorem matchPattern_escaped (c : Char) (p s : List Char) :
    matchPattern (escapeLike [c] ++ p) s =
      match s with
      | d :: rest => decide (lowerAscii c = lowerAscii d) && matchPattern p rest
      | [] => false := by
  simp only [escapeLike, List.flatMap_cons, List.flatMap_nil, List.append_nil]
  by_cases special : c = '\\' ∨ c = '%' ∨ c = '_'
  · rw [if_pos special]
    cases s with
    | nil => simp [matchPattern]
    | cons d rest => simp [matchPattern, sameLetter_eq]
  · rw [if_neg special]
    simp only [not_or] at special
    cases s with
    | nil => simp [matchPattern, special]
    | cons d rest =>
      simp only [List.cons_append, List.nil_append]
      rw [matchPattern, sameLetter_eq] <;> simp [special]

theorem escapeLike_cons (c : Char) (p : List Char) : escapeLike (c :: p) = escapeLike [c] ++ escapeLike p := by
  simp [escapeLike]

theorem matchPattern_escapeLike (p s : List Char) :
    matchPattern (escapeLike p ++ ['%']) s = (foldCase p).isPrefixOf (foldCase s) := by
  induction p generalizing s with
  | nil =>
    rw [escapeLike, List.flatMap_nil, List.nil_append, matchPattern_any]
    rfl
  | cons c p ih =>
    rw [escapeLike_cons, List.append_assoc, matchPattern_escaped]
    cases s with
    | nil => rfl
    | cons d rest =>
      simp only [ih, foldCase, List.map_cons, List.isPrefixOf, beq_eq_decide]

theorem matchPattern_escapeLike_whole (p s : List Char) :
    matchPattern (escapeLike p) s = decide (foldCase p = foldCase s) := by
  induction p generalizing s with
  | nil => cases s <;> rfl
  | cons c p ih =>
    rw [escapeLike_cons, matchPattern_escaped]
    cases s with
    | nil => rfl
    | cons d rest =>
      rw [Bool.eq_iff_iff]
      simp only [ih, Bool.and_eq_true, decide_eq_true_eq]
      simp [foldCase]

/-! NUL in the text or in the pattern. -/

theorem mem_escapeLike {c : Char} {p : List Char} (plain : c ≠ '\\') : c ∈ escapeLike p ↔ c ∈ p := by
  rw [escapeLike, List.mem_flatMap]
  constructor
  · rintro ⟨d, member, inside⟩
    split at inside
    · simp only [List.mem_cons, List.not_mem_nil, or_false] at inside
      exact inside.resolve_left plain ▸ member
    · exact List.mem_singleton.mp inside ▸ member
  · intro member
    refine ⟨c, member, ?_⟩
    split <;> simp

theorem cText_of_not_mem {s : List Char} (free : nul ∉ s) : cText s = s :=
  List.takeWhile_eq_self_iff.mpr (fun c member => by
    simp only [ne_eq, decide_not, Bool.not_eq_eq_eq_not, Bool.not_true, decide_eq_false_iff_not]
    exact fun same => free (same ▸ member))

/-- The part of an escaped text before its NUL is the escaped part before the NUL. -/
theorem cText_escapeLike {p : List Char} (held : nul ∈ p) (rest : List Char) :
    cText (escapeLike p ++ rest) = escapeLike (cText p) := by
  induction p with
  | nil => simp at held
  | cons c p ih =>
    by_cases first : c = nul
    · subst first
      rfl
    · have later : nul ∈ p := by
        rcases List.mem_cons.mp held with same | later
        · exact absurd same.symm first
        · exact later
      have kept : cText (c :: p) = c :: cText p := by
        rw [cText, List.takeWhile_cons_of_pos (by simpa using first)]
        rfl
      have free : nul ∉ escapeLike [c] := by
        rw [mem_escapeLike (by decide)]
        simpa using Ne.symm first
      rw [kept, escapeLike_cons, escapeLike_cons c (cText p), List.append_assoc, cText,
        List.takeWhile_append_of_pos, ← cText, ih later]
      intro d member
      simp only [ne_eq, decide_not, Bool.not_eq_eq_eq_not, Bool.not_true, decide_eq_false_iff_not]
      exact fun same => free (same ▸ member)

theorem lowerAscii_eq_nul {c : Char} (same : lowerAscii c = nul) : c = nul := by
  unfold lowerAscii at same
  split at same
  · rename_i letter
    have low : 65 ≤ c.toNat := letter.1
    have high : c.toNat ≤ 90 := letter.2
    have zero : (Char.ofNat (c.toNat + 32)).toNat = 0 := by rw [same]; rfl
    rw [Char.toNat_ofNat, if_pos (by simp [Nat.isValidChar]; omega)] at zero
    omega
  · exact same

/-- A text without NUL begins another up to case when it begins what stands before the other's NUL. -/
theorem isPrefixOf_cText {p : List Char} (free : nul ∉ p) (s : List Char) :
    (foldCase p).isPrefixOf (foldCase (cText s)) = (foldCase p).isPrefixOf (foldCase s) := by
  induction p generalizing s with
  | nil => simp [foldCase]
  | cons c p ih =>
    simp only [List.mem_cons, not_or] at free
    cases s with
    | nil => rfl
    | cons d rest =>
      by_cases ends : d = nul
      · subst ends
        have different : lowerAscii c ≠ lowerAscii nul := fun same => free.1 (lowerAscii_eq_nul same).symm
        simp [foldCase, cText, List.isPrefixOf, different]
      · have kept : cText (d :: rest) = d :: cText rest := by
          rw [cText, List.takeWhile_cons_of_pos (by simpa using ends)]
          rfl
        have step := ih free.2 rest
        simp only [foldCase] at step
        simp only [kept, foldCase, List.map_cons, List.isPrefixOf, step]

/-- What the pattern of an escaped text matches: the texts it begins, up to case; or, with a NUL in it, those with the
same part before their NUL. -/
def begins (p s : List Char) : Bool :=
  if nul ∈ p then foldCase (cText p) = foldCase (cText s) else (foldCase p).isPrefixOf (foldCase s)

theorem like_escapeLike (p s : List Char) : like (escapeLike p ++ ['%']) s = begins p s := by
  unfold like begins
  by_cases held : nul ∈ p
  · rw [if_pos held, cText_escapeLike held, matchPattern_escapeLike_whole]
  · rw [if_neg held, cText_of_not_mem, matchPattern_escapeLike, isPrefixOf_cText held]
    rw [List.mem_append, mem_escapeLike (by decide)]
    simpa [held] using (by decide : nul ≠ '%')

/-- A text that another begins matches its pattern. -/
theorem begins_of_isPrefix {p s : List Char} (part : p <+: s) : begins p s = true := by
  obtain ⟨rest, rfl⟩ := part
  unfold begins
  by_cases held : nul ∈ p
  · rw [if_pos held, decide_eq_true_iff]
    congr 1
    rw [cText, cText, List.takeWhile_append]
    rw [if_neg]
    intro whole
    have all := List.takeWhile_eq_self_iff.mp (List.takeWhile_prefix _ |>.eq_of_length whole)
    simpa using all nul held
  · rw [if_neg held, List.isPrefixOf_iff_prefix, foldCase, foldCase, List.map_append]
    exact List.prefix_append _ _

end MessageRelay.Library
