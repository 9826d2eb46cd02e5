import MessageRelay.Door.Carrier
import MessageRelay.Handoff.HandOff

/-! The readers of a row: a body of the listing as it is served, its text counted against what the listing may hand
back. Bytes at rest are streamed from the bucket and written straight to text, which is put where a mark stands. -/

namespace MessageRelay.Handoff
open MessageRelay.Lane MessageRelay.Library MessageRelay.Library.Json MessageRelay.Session MessageRelay.Payments
open MessageRelay.Send

def TxShape.named (name : String) : Option TxShape := [TxShape.array, .hex, .base64].find? (fun shape => shape.name = name)

/-- `hex_of`: the carrier's bytes as one hex string. -/
def hexOf : Door.Carrier → String
  | .hex text => numberText text
  | c => hexEncode (c.bytes 0 c.len)

def TxShape.of : Door.Carrier → TxShape
  | .array _ => .array
  | .hex _ => .hex
  | .base64 _ => .base64

/-- The carrier as the hand-off has it. -/
def carried (c : Door.Carrier) : Carrier := ⟨TxShape.of c, c.len, hexOf c⟩

/-- An object as the bucket gives it: its body does not open, or it is a stream whose reads may fail. -/
structure R2Object where
  etag : String
  body : Except String (List (Except String Bytes))

/-- What the bucket answers for a key. -/
abbrev Bucket := String → Except String (Option R2Object)

structure R2Chunks where
  stream : List (Except String Bytes)
  due : Nat

def R2Chunks.next (chunks : R2Chunks) : Except String (Option Bytes × R2Chunks) :=
  match chunks.stream with
  | [] => if 0 < chunks.due then .error ("R2 body ended " ++ toString chunks.due ++ " bytes short") else .ok (none, chunks)
  | .error e :: _ => .error ("R2 body read: " ++ e)
  | .ok chunk :: rest => .ok (some chunk, ⟨rest, chunks.due - chunk.length⟩)

/-- `R2Store::open`: the object's bytes from an offset on, where it is still the one the stamp is of. -/
def Bucket.read (bucket : Bucket) (key : String) (start : Nat) (stamp : Stamp) : Except String R2Chunks :=
  if stamp.size ≤ start then .ok ⟨[], 0⟩
  else
    match bucket key with
    | .error e => .error ("R2 get: " ++ e)
    | .ok none => .error "R2 object not found"
    | .ok (some object) =>
      if object.etag ≠ stamp.etag then .error "the R2 object changed while it was read"
      else
        match object.body with
        | .error e => .error ("R2 body: " ++ e)
        | .ok stream => .ok ⟨stream, stamp.size - start⟩

theorem R2Chunks.next_shorter {chunks later : R2Chunks} {chunk : Bytes} (read : chunks.next = .ok (some chunk, later)) :
    later.stream.length < chunks.stream.length := by
  unfold R2Chunks.next at read
  split at read
  · split at read <;> cases read
  · cases read
  · next rest stream =>
    cases read
    rw [stream]
    exact Nat.lt_succ_self _

/-- A loop over the chunks, to their end. -/
def R2Chunks.each {σ : Type} (f : σ → Bytes → σ) (chunks : R2Chunks) (s : σ) : Except String σ :=
  match _read : chunks.next with
  | .error e => .error e
  | .ok (none, _) => .ok s
  | .ok (some chunk, later) => later.each f (f s chunk)
termination_by chunks.stream.length
decreasing_by exact R2Chunks.next_shorter _read

/-- The number of a byte and a comma. -/
def numbered (b : UInt8) : Text := utf8Bytes (toString b.toNat) ++ [comma]

/-- Whole groups of three bytes are written as they come, and what is left waits for the next chunk. -/
def writeGroups (state : Text × Bytes) (chunk : Bytes) : Text × Bytes :=
  let held := state.2 ++ chunk
  let whole := held.length / 3 * 3
  (state.1 ++ Base64.encode (held.take whole), held.drop whole)

def beefOpen : Text := utf8Bytes "\x7b\"beef\":\""
def beefClose : Text := utf8Bytes "\"\x7d"

/-- An object's bytes as the JSON text of `payment.tx`. -/
def txText (bucket : Bucket) (key : String) (stamp : Stamp) (shape : TxShape) : Except String Text := do
  let chunks ← bucket.read key 0 stamp
  match shape with
  | .array =>
    let text ← chunks.each (fun text chunk => text ++ chunk.flatMap numbered) [openArray]
    let text := if text.getLast? = some comma then text.dropLast else text
    return text ++ [closeArray]
  | .hex =>
    let text ← chunks.each (fun text chunk => text ++ utf8Bytes (hexEncode chunk)) [quote]
    return text ++ [quote]
  | .base64 =>
    let (text, held) ← chunks.each writeGroups (beefOpen, [])
    return text ++ Base64.encode held ++ beefClose

/-- The most the text can be: the products saturate at 64 bits, and the sums wrap. -/
def encodedLen (size : Nat) (shape : TxShape) : Nat :=
  match shape with
  | .array => (min (size * 4) (2 ^ 64 - 1) + 2) % 2 ^ 64
  | .hex => (min (size * 2) (2 ^ 64 - 1) + 2) % 2 ^ 64
  | .base64 => (min ((size + 2) / 3 * 4) (2 ^ 64 - 1) + 12) % 2 ^ 64

def listInlineObjectBytes : Nat := 2000000
def listInlineBytes : Nat := 16 * 1024 * 1024

/-- A row's body as a reader serves it. -/
inductive Served where
  | body (text : Text)
  | nextListing
  deriving DecidableEq, Repr

/-- The object a row's payment names. -/
def restOf (payment : Value) : Option (String × Stamp × TxShape) := do
  let key ← (payment.get "beefR2Key").bind Value.asStr
  let size ← (payment.get "beefSize").bind asU64
  let etag ← (payment.get "beefEtag").bind Value.asStr
  let shape ← ((payment.get "txShape").bind Value.asStr).bind TxShape.named
  return (key, ⟨size, etag⟩, shape)

/-- A text that is served where it fits what is left. -/
def counted (text : Text) (left : Nat) : Served × Nat :=
  if text.length ≤ left then (.body text, left - text.length) else (.nextListing, left)

/-- A member set in a row's payment. -/
def setPayment (name : String) (v : Value) : Value → Value
  | .object fields =>
    .object (modifyField "payment" (fun payment =>
      match payment with
      | .object inside => .object (Value.insertField name v inside)
      | other => other) fields)
  | other => other

def largeWords (size : Nat) (key : String) : String :=
  "This payment's BEEF (" ++ toString size ++ " bytes) is not in the listing: it rests at its key, " ++ key ++
    ". Ask POST /beef/download-url with this message's messageId for a URL to read it from, and internalize it from there."

def unreadWords (key : String) : String :=
  "This payment's BEEF could not be read back for this listing: it rests at its key, " ++ key ++
    ". List again, or ask POST /beef/download-url with this message's messageId."

/-- A row served by its key carries the key, and what to do with it. -/
def byKey (key words : String) (row : Value) : Value :=
  setPayment "words" (.string words) (setPayment "key" (.string key) row)

/-- A mark nobody else can write. -/
def mark (uuid : Bytes) : String := "rmb-tx-" ++ hexEncode uuid

/-- `replacen` with one replacement. -/
def replaceFirst (pattern new : Text) : Text → Text
  | [] => []
  | b :: rest =>
    if pattern.isPrefixOf (b :: rest) then new ++ (b :: rest).drop pattern.length
    else b :: replaceFirst pattern new rest

def valueText (v : Value) : Text := utf8Bytes v.text

def serveBody (range : Range) (bucket : Bucket) (uuid : Bytes) (body : Text) (left : Nat) : Served × Nat :=
  if quotedText "beefR2Key" <:+: body then
    match Value.fromSlice range body with
    | none => counted body left
    | some row =>
      match (row.get "payment").bind restOf with
      | none => counted body left
      | some (key, stamp, shape) =>
        let most := encodedLen stamp.size shape
        if listInlineObjectBytes < most then counted (valueText (byKey key (largeWords stamp.size key) row)) left
        -- the body, the payment's text, and `,"tx":` between them
        else if left < most + body.length + 6 then (.nextListing, left)
        else
          match txText bucket key stamp shape with
          | .error _ => counted (valueText (byKey key (unreadWords key) row)) left
          | .ok tx =>
            let marked := valueText (setPayment "tx" (.string (mark uuid)) row)
            let served := replaceFirst (quote :: (utf8Bytes (mark uuid) ++ [quote])) tx marked
            (.body served, left - served.length)
  else counted body left

end MessageRelay.Handoff
