import MessageRelay.Permissions.Fees

/-! The totals of a quote beside what the send charges. The quote adds and multiplies in i32 over a list of any length,
the send in checked u64, so the two part where a total leaves i32. -/

namespace MessageRelay.Payments
open MessageRelay.Send MessageRelay.Permissions

def invalidAggregateFee : Answer := errorAnswer "ERR_INTERNAL" "Invalid aggregate delivery fee." 500

/-- The delivery fee of a send, once a recipient, as a u64. -/
def deliveryFeeDue (deliveryFee : Int) (recipients : Nat) : Except Answer Nat :=
  if 0 ≤ deliveryFee ∧ 0 < recipients ∧ deliveryFee.toNat * recipients < 2 ^ 64 then
    .ok (deliveryFee.toNat * recipients)
  else .error invalidAggregateFee

/-- Inside i32. -/
def InI32 (n : Int) : Prop := minI32 ≤ n ∧ n ≤ maxI32

theorem wrapped_eq_iff (n : Int) : wrapped n = n ↔ InI32 n := by
  simp only [wrapped, InI32, minI32, maxI32]
  omega

section
variable (sender messageBox : String) (tables : Tables)

/-- What the payable recipients of a list are owed, exactly. -/
def owed (recipients : List String) : Int := (recipients.map (payableFee sender messageBox tables)).sum

/-- The totals are exact, and no sum or product on the way to them leaves i32. -/
structure TotalsExact (recipients : List String) (deliveryFee : Int) (quotes : Quotes)
    (deliveryFees totalForPayable : Int) : Prop where
  delivery : (deliveryFeeDue deliveryFee recipients.length).toOption.map Int.ofNat = some deliveryFees
  recipient : quotes.totalRecipientFees = owed sender messageBox tables recipients
  total : totalForPayable = deliveryFees + owed sender messageBox tables recipients
  product : InI32 (deliveryFee * recipients.length)
  sums : ∀ front, front <+: recipients → InI32 (owed sender messageBox tables front)
  sum : InI32 (deliveryFee * recipients.length + owed sender messageBox tables recipients)

theorem owed_nonneg (recipients : List String) : 0 ≤ owed sender messageBox tables recipients := by
  apply List.sum_nonneg
  intro fee member
  obtain ⟨r, -, rfl⟩ := List.mem_map.mp member
  exact le_max_left 0 _

/-- A part of the list is owed no more than the whole. -/
theorem owed_front {front recipients : List String} (part : front <+: recipients) :
    owed sender messageBox tables front ≤ owed sender messageBox tables recipients := by
  obtain ⟨back, rfl⟩ := part
  have rest := owed_nonneg sender messageBox tables back
  simp only [owed, List.map_append, List.sum_append] at rest ⊢
  omega

variable {sender messageBox tables}

/-- A quote in detail has at least two recipients, and its totals are those of i32. -/
theorem handleQuote_multi {recipients : List String} {deliveryFee deliveryFees totalForPayable : Int} {quotes : Quotes}
    (answered : (handleQuote sender (some messageBox) recipients deliveryFee tables).1 =
      .ok (.multi quotes deliveryFees totalForPayable)) :
    2 ≤ recipients.length ∧ deliveryFees = wrapped (deliveryFee * recipients.length) ∧
      quotes.totalRecipientFees = wrapped (owed sender messageBox tables recipients) ∧
      totalForPayable = wrapped (deliveryFees + quotes.totalRecipientFees) := by
  simp only [handleQuote] at answered
  split at answered
  · cases answered
  · rename_i given
    split at answered
    · cases answered
    · split at answered
      · cases answered
      · rename_i several
        cases answered
        have start : wrapped (⟨[], [], 0⟩ : Quotes).totalRecipientFees = 0 := by decide
        rw [quoteRecipients_eq sender messageBox deliveryFee recipients ⟨[], [], 0⟩ tables start]
        refine ⟨?_, rfl, by rw [zero_add, owed], rfl⟩
        cases recipients with
        | nil => exact absurd (.inr rfl) given
        | cons r rest =>
          cases rest with
          | nil => exact absurd rfl (several r)
          | cons => simp

theorem deliveryFeeDue_eq {deliveryFee : Int} {recipients : Nat} (positive : 0 < recipients) (due : Int) :
    (deliveryFeeDue deliveryFee recipients).toOption.map Int.ofNat = some due ↔
      0 ≤ deliveryFee ∧ deliveryFee * recipients < 2 ^ 64 ∧ due = deliveryFee * recipients := by
  unfold deliveryFeeDue
  by_cases low : 0 ≤ deliveryFee
  · obtain ⟨fee, rfl⟩ := Int.eq_ofNat_of_zero_le low
    have cast : (fee : Int) * recipients = ((fee * recipients : Nat) : Int) := by push_cast; ring
    rw [cast, Int.toNat_natCast]
    by_cases fits : fee * recipients < 2 ^ 64
    · rw [if_pos ⟨low, positive, fits⟩]
      simp only [Except.toOption, Option.map_some, Option.some.injEq, Int.ofNat_eq_natCast]
      omega
    · rw [if_neg (fun h => fits h.2.2)]
      simp only [Except.toOption, Option.map_none, reduceCtorEq, false_iff]
      omega
  · rw [if_neg (fun h => low h.1)]
    simp only [Except.toOption, Option.map_none, reduceCtorEq, false_iff]
    omega

end

/-- The totals are what the send charges exactly when no fee is negative and the whole of it is an i32. -/
theorem quote_totals_exact_iff (sender messageBox : String) (recipients : List String) (deliveryFee : Int)
    (tables : Tables) (quotes : Quotes) (deliveryFees totalForPayable : Int)
    (answered : (handleQuote sender (some messageBox) recipients deliveryFee tables).1 =
      .ok (.multi quotes deliveryFees totalForPayable)) :
    TotalsExact sender messageBox tables recipients deliveryFee quotes deliveryFees totalForPayable ↔
      0 ≤ deliveryFee ∧
        deliveryFee * recipients.length + (recipients.map (payableFee sender messageBox tables)).sum ≤ maxI32 := by
  obtain ⟨several, delivery, recipient, total⟩ := handleQuote_multi answered
  have nonneg := owed_nonneg sender messageBox tables recipients
  constructor
  · intro exact
    obtain ⟨low, -, -⟩ := (deliveryFeeDue_eq (by omega) deliveryFees).mp exact.delivery
    exact ⟨low, exact.sum.2⟩
  · rintro ⟨low, high⟩
    change deliveryFee * recipients.length + owed sender messageBox tables recipients ≤ maxI32 at high
    have product : 0 ≤ deliveryFee * recipients.length := by positivity
    have small : maxI32 < 2 ^ 31 := by decide
    have deliveryExact : deliveryFees = deliveryFee * recipients.length := by
      rw [delivery, wrapped_eq_iff, InI32]
      exact ⟨le_trans (by decide) product, by omega⟩
    have recipientExact : quotes.totalRecipientFees = owed sender messageBox tables recipients := by
      rw [recipient, wrapped_eq_iff, InI32]
      exact ⟨le_trans (by decide) nonneg, by omega⟩
    have below : minI32 ≤ 0 := by decide
    refine ⟨(deliveryFeeDue_eq (by omega) deliveryFees).mpr ⟨low, by omega, deliveryExact⟩, recipientExact, ?_,
      ⟨by omega, by omega⟩, fun front part => ?_, ⟨by omega, by omega⟩⟩
    · rw [total, deliveryExact, recipientExact, wrapped_eq_iff, InI32]
      exact ⟨by omega, by omega⟩
    · have least := owed_nonneg sender messageBox tables front
      have most := owed_front sender messageBox tables part
      exact ⟨by omega, by omega⟩

/-- Two recipients, each with a box-wide fee. -/
def feeTables (first second : Int) : Tables := fun r =>
  if r = "028d37b941208cd6b8a4c28288eda5f2f16c2b3ab0fcb6d13c18b47fe37b971fc1" then [⟨none, "inbox", first⟩]
  else [⟨none, "inbox", second⟩]

def twoRecipients : List String :=
  ["028d37b941208cd6b8a4c28288eda5f2f16c2b3ab0fcb6d13c18b47fe37b971fc1",
    "038d37b941208cd6b8a4c28288eda5f2f16c2b3ab0fcb6d13c18b47fe37b971fc1"]

/-- The totals of a quote for the two, with a delivery fee of ten. -/
def quotedTotals (first second : Int) : Option (Int × Int × Int) :=
  match (handleQuote "s" (some "inbox") twoRecipients 10 (feeTables first second)).1 with
  | .ok (.multi quotes deliveryFees totalForPayable) => some (deliveryFees, quotes.totalRecipientFees, totalForPayable)
  | _ => none

theorem small_quote_exact : ∃ quotes deliveryFees totalForPayable,
    (handleQuote "s" (some "inbox") twoRecipients 10 (feeTables 5 7)).1 =
      .ok (.multi quotes deliveryFees totalForPayable) ∧
    TotalsExact "s" "inbox" (feeTables 5 7) twoRecipients 10 quotes deliveryFees totalForPayable := by
  refine ⟨_, _, _, rfl, ?_⟩
  exact (quote_totals_exact_iff "s" "inbox" twoRecipients 10 (feeTables 5 7) _ _ _ rfl).mpr (by decide +kernel)

/-- Two fees that each were accepted add up to a negative total. -/
theorem quote_total_wraps : quotedTotals 2147483647 1 = some (20, -2147483648, -2147483628) ∧
    ∃ quotes deliveryFees totalForPayable,
      (handleQuote "s" (some "inbox") twoRecipients 10 (feeTables 2147483647 1)).1 =
        .ok (.multi quotes deliveryFees totalForPayable) ∧
      ¬ TotalsExact "s" "inbox" (feeTables 2147483647 1) twoRecipients 10 quotes deliveryFees totalForPayable := by
  refine ⟨by decide +kernel, _, _, _, rfl, fun exact => ?_⟩
  exact absurd exact.sum.2 (by decide +kernel)

end MessageRelay.Payments
