import Mathlib

/-! A sliding replay window: the highest counter accepted and one bit for each of the `width`
counters up to it. Counters may arrive in any order, and each is accepted at most once. -/

namespace MessageRelay.Library

/-- Bit `i` of the mask stands for counter `last - i`. -/
structure ReplayWindow (width : Nat) where
  last : Nat
  mask : BitVec width
  deriving DecidableEq, Repr

namespace ReplayWindow

variable {width : Nat}

/-- Not accepted yet, and not below the window. -/
def fresh (w : ReplayWindow width) (h : Nat) : Bool :=
  if w.last < h then true
  else if width ≤ w.last - h then false
  else w.mask &&& (BitVec.ofNat width 1 <<< (w.last - h)) == BitVec.ofNat width 0

def accept (w : ReplayWindow width) (h : Nat) : ReplayWindow width :=
  if w.last < h then
    { last := h,
      mask := (if width ≤ h - w.last then BitVec.ofNat width 0 else w.mask <<< (h - w.last)) ||| BitVec.ofNat width 1 }
  else { w with mask := w.mask ||| (BitVec.ofNat width 1 <<< (w.last - h)) }

/-- Every accepted counter is at most the highest, with its bit set if it is still in the window. -/
def Tracks (w : ReplayWindow width) (accepted : Nat → Prop) : Prop :=
  ∀ h, accepted h → h ≤ w.last ∧ (w.last - h < width → w.mask.getLsbD (w.last - h) = true)

theorem Tracks.of_none {w : ReplayWindow width} {accepted : Nat → Prop} (none : ∀ h, ¬accepted h) :
    w.Tracks accepted :=
  fun h taken => absurd taken (none h)

/-- The bit tested by `fresh` and set by `accept`. -/
theorem getLsbD_one_shiftLeft {i : Nat} (bound : i < width) : (BitVec.ofNat width 1 <<< i).getLsbD i = true := by
  simp only [BitVec.getLsbD_shiftLeft, BitVec.getLsbD_one, bound]
  simp
  omega

theorem and_one_shiftLeft (mask : BitVec width) {i : Nat} (bound : i < width)
    (set : mask.getLsbD i = true) : mask &&& (BitVec.ofNat width 1 <<< i) ≠ BitVec.ofNat width 0 := by
  intro zero
  have bit := congrArg (fun m => m.getLsbD i) zero
  simp [set, getLsbD_one_shiftLeft bound] at bit

theorem Tracks.not_fresh {w : ReplayWindow width} {accepted : Nat → Prop} (tracks : w.Tracks accepted)
    {h : Nat} (taken : accepted h) : w.fresh h = false := by
  obtain ⟨most, bit⟩ := tracks h taken
  unfold fresh
  split
  · omega
  split
  · rfl
  next _ inside =>
    have set := and_one_shiftLeft w.mask (by omega) (bit (by omega))
    simpa using set

theorem Tracks.accept {w : ReplayWindow width} {accepted : Nat → Prop} (tracks : w.Tracks accepted)
    (h : Nat) : (w.accept h).Tracks (fun k => accepted k ∨ k = h) := by
  intro k taken
  unfold ReplayWindow.accept
  split
  next above =>
    -- the window moves up by `h - w.last`, and every bit with it
    cases taken with
    | inl earlier =>
      obtain ⟨most, bit⟩ := tracks k earlier
      refine ⟨by simp only; omega, fun bound => ?_⟩
      simp only at bound ⊢
      have inside : ¬width ≤ h - w.last := by omega
      have moved : h - k - (h - w.last) = w.last - k := by omega
      simp only [BitVec.getLsbD_or, if_neg inside, BitVec.getLsbD_shiftLeft, moved, bit (by omega), bound]
      simp
      omega
    | inr this =>
      subst this
      refine ⟨le_rfl, fun bound => ?_⟩
      simp only [Nat.sub_self] at bound ⊢
      simp only [BitVec.getLsbD_or, BitVec.getLsbD_one]
      simp
      omega
  next within =>
    cases taken with
    | inl earlier =>
      obtain ⟨most, bit⟩ := tracks k earlier
      exact ⟨most, fun bound => by simp only [BitVec.getLsbD_or, bit bound, Bool.true_or]⟩
    | inr this =>
      subst this
      refine ⟨by simp only; omega, fun bound => ?_⟩
      simp only [BitVec.getLsbD_or, getLsbD_one_shiftLeft bound, Bool.or_true]

theorem accept_last (w : ReplayWindow width) (h : Nat) : (w.accept h).last = max w.last h := by
  unfold accept
  split <;> simp only <;> omega

/-- The highest counter bounds the accepted ones, and each bit tells of its counter whether it was accepted. -/
structure Exact (w : ReplayWindow width) (accepted : Nat → Prop) : Prop where
  bound : ∀ h, accepted h → h ≤ w.last
  bit : ∀ i, i < width → (w.mask.getLsbD i = true ↔ i ≤ w.last ∧ accepted (w.last - i))

theorem getLsbD_one_shiftLeft_iff {i j : Nat} (bound : j < width) :
    (BitVec.ofNat width 1 <<< i).getLsbD j = true ↔ j = i := by
  simp only [BitVec.getLsbD_shiftLeft, BitVec.getLsbD_one, bound]
  simp
  omega

theorem and_one_shiftLeft_eq_zero (mask : BitVec width) {i : Nat} (bound : i < width) :
    mask &&& (BitVec.ofNat width 1 <<< i) = BitVec.ofNat width 0 ↔ mask.getLsbD i = false := by
  constructor
  · intro zero
    by_contra set
    exact and_one_shiftLeft mask bound (by simpa using set) zero
  · intro clear
    apply BitVec.eq_of_getLsbD_eq
    intro j inside
    by_cases same : j = i
    · subst same
      simp [clear]
    · have other : (BitVec.ofNat width 1 <<< i).getLsbD j = false := by
        rw [Bool.eq_false_iff]
        exact fun set => same ((getLsbD_one_shiftLeft_iff inside).mp set)
      simp [other]

/-- Fresh are the counters above the highest, and those in the window not accepted yet. -/
theorem Exact.fresh_iff {w : ReplayWindow width} {accepted : Nat → Prop} (exact_ : w.Exact accepted) (h : Nat) :
    w.fresh h = true ↔ ¬ accepted h ∧ (w.last < h ∨ w.last - h < width) := by
  unfold fresh
  by_cases above : w.last < h
  · have unseen : ¬ accepted h := fun taken => absurd (exact_.bound h taken) (by omega)
    simp [above, unseen]
  · by_cases outside : width ≤ w.last - h
    · simp only [if_neg above, if_pos outside]
      simp
      omega
    · have inside : w.last - h < width := by omega
      have told := exact_.bit (w.last - h) inside
      have place : w.last - (w.last - h) = h := by omega
      rw [place] at told
      rw [if_neg above, if_neg outside, beq_iff_eq, and_one_shiftLeft_eq_zero _ inside, Bool.eq_false_iff, ne_eq, told]
      have below : w.last - h ≤ w.last := Nat.sub_le ..
      simp [above, below, inside]

theorem Exact.accept {w : ReplayWindow width} {accepted : Nat → Prop} (exact_ : w.Exact accepted) {h : Nat}
    (fresh : w.fresh h = true) : (w.accept h).Exact (fun k => accepted k ∨ k = h) := by
  obtain ⟨unseen, place⟩ := (exact_.fresh_iff h).mp fresh
  unfold ReplayWindow.accept
  by_cases above : w.last < h
  · -- the window moves up by `h - w.last`: the bits below are the counters passed over, the ones above the old bits
    rw [if_pos above]
    constructor
    · rintro k (earlier | rfl)
      · exact (exact_.bound k earlier).trans above.le
      · exact le_rfl
    · intro i inside
      have moved : (if width ≤ h - w.last then BitVec.ofNat width 0 else w.mask <<< (h - w.last)).getLsbD i = true ↔
          h - w.last ≤ i ∧ w.mask.getLsbD (i - (h - w.last)) = true := by
        by_cases far : width ≤ h - w.last
        · simp only [if_pos far]
          simp
          omega
        · simp only [if_neg far, BitVec.getLsbD_shiftLeft, inside]
          simp
      have one : (BitVec.ofNat width 1).getLsbD i = true ↔ i = 0 := by
        simp only [BitVec.getLsbD_one]
        simp
        omega
      simp only [BitVec.getLsbD_or, Bool.or_eq_true, moved, one]
      by_cases reached : h - w.last ≤ i
      · rw [exact_.bit _ (by omega)]
        have same : w.last - (i - (h - w.last)) = h - i := by omega
        rw [same]
        by_cases taken : accepted (h - i)
        · simp only [taken, true_or, and_true]
          omega
        · simp only [taken, false_or, and_false]
          omega
      · have passed : ¬ accepted (h - i) := fun taken => absurd (exact_.bound _ taken) (by omega)
        simp only [passed, false_or]
        omega
  · have inside : w.last - h < width := by omega
    rw [if_neg above]
    constructor
    · rintro k (earlier | rfl)
      · exact exact_.bound k earlier
      · exact Nat.le_of_not_lt above
    · intro i bound
      simp only [BitVec.getLsbD_or, Bool.or_eq_true, getLsbD_one_shiftLeft_iff bound, exact_.bit i bound]
      constructor
      · rintro (⟨below, taken⟩ | rfl)
        · exact ⟨below, Or.inl taken⟩
        · exact ⟨Nat.sub_le .., Or.inr (by omega)⟩
      · rintro ⟨below, taken | same⟩
        · exact Or.inl ⟨below, taken⟩
        · exact Or.inr (by omega)

end ReplayWindow

end MessageRelay.Library
