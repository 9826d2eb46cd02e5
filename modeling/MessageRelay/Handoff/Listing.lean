import MessageRelay.Handoff.CameBack

/-! One listing, and the listings that follow it as a client acknowledges what it was served. Three ways of serving a row
count against one budget: a payment to be read back by the most its text can be, every other row by its text. -/

namespace MessageRelay.Handoff
open MessageRelay.Lane MessageRelay.Library MessageRelay.Library.Json MessageRelay.Session MessageRelay.Payments
open MessageRelay.Send

/-- What a row was stored of: its message, and its payment with the recipient's outputs. -/
abbrev ListedRow := Value × Option (Value × Value)

namespace ListedRow

def value (r : ListedRow) : Value := storedRow r.1 r.2

def body (r : ListedRow) : Text := utf8Bytes (storedBody r.1 r.2)

/-- The bytes at rest the row's payment names. -/
def rest (r : ListedRow) : Option (String × Stamp × TxShape) := (r.value.get "payment").bind restOf

theorem body_eq (r : ListedRow) : r.body = valueText r.value := storedBody_eq r.1 r.2

end ListedRow

/-- What the bucket answers at each row of a listing, and the mark taken for it. -/
abbrev Served.Weather := Nat → Bucket × Bytes

/-- The loop over the rows: what was left before each, and how it is served. -/
def listing (range : Range) (weather : Served.Weather) : Nat → Nat → List Text → List (Nat × Served)
  | _, _, [] => []
  | i, left, body :: rest =>
    let (served, left') := serveBody range (weather i).1 (weather i).2 body left
    (left, served) :: listing range weather (i + 1) left' rest

def Served.text : Served → Option Text
  | .body text => some text
  | .nextListing => none

/-- The bodies of the answer. -/
def formatted (served : List (Nat × Served)) : List Text := served.filterMap (fun s => s.2.text)

/-- The rows a listing serves, or those it leaves. -/
def picked (serves : Bool) (rows : List ListedRow) (served : List (Nat × Served)) : List ListedRow :=
  ((rows.zip served).filter (fun r => r.2.2.text.isSome == serves)).map Prod.fst

/-- A row as it is stored: what a parsed body can hold, within a row's bound. Its numbers, read and printed again, make
it no longer. -/
structure ListedRow.Stored (range : Range) (r : ListedRow) : Prop where
  readable : Value.Readable range 127 r.value
  small : r.body.length ≤ 2000000
  noLonger : (valueText (r.value.reread range)).length ≤ r.body.length

/-- How a row is served: as stored where its payment names no bytes at rest, and else as it reads, with them or by their
key. -/
inductive ServedAs (range : Range) (bucket : Bucket) (r : ListedRow) (text : Text) : Prop
  | stored (none' : r.rest = none) (same : text = r.body)
  | readBack {key : String} {stamp : Stamp} {shape : TxShape} {stream : List Bytes}
      (names : r.rest = some (key, stamp, shape))
      (gives : GivesChunks bucket key stamp stream) (size : stream.flatten.length = stamp.size)
      (parsed : Value.fromSlice everyNumber text =
        some (setPayment "tx" (txValue stream.flatten shape) (r.value.reread range)))
  | byKey {key : String} {stamp : Stamp} {shape : TxShape} (words : String) (names : r.rest = some (key, stamp, shape))
      (parsed : Value.fromSlice everyNumber text = some (byKey key words (r.value.reread range)))

/-- The text a row was left out for, counted before its bytes are read, did not fit. -/
inductive Unfit (range : Range) (bucket : Bucket) (r : ListedRow) (left : Nat) : Prop
  | stored (none' : r.rest = none) (over' : left < r.body.length)
  | large {key : String} {stamp : Stamp} {shape : TxShape} (names : r.rest = some (key, stamp, shape))
      (large : listInlineObjectBytes < encodedLen stamp.size shape)
      (over' : left < (valueText (byKey key (largeWords stamp.size key) (r.value.reread range))).length)
  | inlined {key : String} {stamp : Stamp} {shape : TxShape} (names : r.rest = some (key, stamp, shape))
      (small : encodedLen stamp.size shape ≤ listInlineObjectBytes)
      (over' : left < encodedLen stamp.size shape + r.body.length + 6)
  | unread {key : String} {stamp : Stamp} {shape : TxShape} (names : r.rest = some (key, stamp, shape))
      (failed : ∀ stream, ¬ GivesChunks bucket key stamp stream)
      (over' : left < (valueText (byKey key (unreadWords key) (r.value.reread range))).length)

/-- What serving one row does with what is left. -/
structure RowServed (range : Range) (bucket : Bucket) (r : ListedRow) (left : Nat) (out : Served × Nat) : Prop where
  served : ∀ text, out.1 = .body text → text.length + out.2 = left ∧ ServedAs range bucket r text
  leftOut : out.1 = .nextListing → out.2 = left ∧ Unfit range bucket r left

section
variable {range : Range} {bucket : Bucket} {uuid : Bytes} {left : Nat}

end

end MessageRelay.Handoff
