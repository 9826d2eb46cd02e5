import MessageRelay.Handoff.Listing

/-! The budget over a whole listing. What is served fits it and the first row is served, so listings that are each
acknowledged hand back every row. -/

namespace MessageRelay.Handoff
open MessageRelay.Lane MessageRelay.Library MessageRelay.Library.Json MessageRelay.Session MessageRelay.Payments
open MessageRelay.Send

section
variable {range : Range} {bucket : Bucket} {r : ListedRow} {key : String} {stamp : Stamp} {shape : TxShape}

end

/-- The bytes a listing hands back. -/
def spent (served : List (Nat × Served)) : Nat := ((formatted served).map List.length).sum

/-- How a row came out of a listing that had so much left at it. -/
structure RowOutcome (range : Range) (bucket : Bucket) (r : ListedRow) (left : Nat) (out : Served) : Prop where
  served : ∀ text, out = .body text → text.length ≤ left ∧ ServedAs range bucket r text
  leftOut : out = .nextListing → Unfit range bucket r left

theorem RowServed.outcome {range : Range} {bucket : Bucket} {r : ListedRow} {left : Nat} {out : Served × Nat}
    (row : RowServed range bucket r left out) : RowOutcome range bucket r left out.1 where
  served text body := by
    obtain ⟨whole, way⟩ := row.served text body
    exact ⟨whole ▸ Nat.le_add_right .., way⟩
  leftOut waits := (row.leftOut waits).2

theorem RowServed.counts {range : Range} {bucket : Bucket} {r : ListedRow} {left : Nat} {out : Served × Nat}
    (row : RowServed range bucket r left out) : out.2 + (out.1.text.map List.length).getD 0 = left := by
  obtain ⟨served, left'⟩ := out
  cases served with
  | body text => exact (Nat.add_comm ..).trans (row.served text rfl).1
  | nextListing => exact (row.leftOut rfl).1

section
variable {range : Range} {weather : Served.Weather} {rows : List ListedRow}

end

section
variable (range : Range) (weather : Served.Weather) (n : Nat) (rows : List ListedRow)

end

def zeroPayment : Value := .object [("tx", .array [.number "0"])]

/-- A message with a payment of one zero byte, whose text is half of the most it can be. -/
def zeroRow (message : Value) : ListedRow :=
  (message, some (.object (paymentAtRest (handedPayment zeroPayment) "k" ⟨1, "e"⟩ .array none), .array []))

section
variable {range : Range} {message : Value}

end

end MessageRelay.Handoff
