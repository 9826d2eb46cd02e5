import MessageRelay.Door.RawTx
import MessageRelay.Library.Parts

/-! The subject of a reading: its tip, read off the bytes of the reader's cursor, and its raw bytes out of the object, held
to the txid of the tip. -/

namespace MessageRelay.Door
open MessageRelay.Library MessageRelay.Library.Cursor

/-- The subject: its txid, where it starts, and the place of the BUMP that proves it. -/
structure Tip (Hash : Type) where
  txid : Hash
  start : Nat
  proof : Option Nat
  deriving DecidableEq, Repr

/-- `BSC3`. -/
def newCursor : List UInt8 := [0x42, 0x53, 0x43, 0x33]

section
variable (word : Nat)

def taken (n : Nat) : Reader (List UInt8) := do
  let start ← Reader.place
  skip word n
  bytesAt start (start + n)

def flagged (n : Nat) : Reader Unit := do
  let flag ← taken word 1
  if flag = [1] then skip word n else pure ()

/-- The place moved, to where the bytes may not go. -/
def jump (n : Nat) : Reader Unit := fun _ place => if place + n < 2 ^ word then .ok ((), place + n) else .error .short

def provenBy (txid : List UInt8) (entries : List UInt8) : Option Nat :=
  ((wholeParts 40 entries).find? (fun entry => entry.take 32 = txid)).map (fun entry => ofLeBytes (entry.drop 32))

def readTip : Reader (Option (Tip (List UInt8))) := do
  let magic ← taken word 4
  if magic ≠ newCursor ∧ magic ≠ oldCursor then Reader.fail .short
  else
    skip word 1 -- spends checked
    flagged word 32 -- the subject the caller named
    skip word (8 + 8 + 1 + 4) -- the frame
    flagged word 32 -- the prefix's subject
    skip word (8 + 8 + 8 + 8)
    let last ← taken word 1
    if last = [0] then pure none
    else if last ≠ [1] then Reader.fail .short
    else
      let txid ← taken word 32
      let start ← taken word 8
      let bumps ← varint word
      jump word (bumps * (8 + 32))
      let proven ← varint word
      let entries ← taken word (proven * (32 + 8))
      pure (some ⟨txid, ofLeBytes start, provenBy txid entries⟩)

end

section
variable {Hash : Type}

/-- The tip in a cursor's bytes, on a `usize` of 32 bits. -/
def tipIn (hash : List UInt8 → Hash) (bin : List UInt8) : Except String (Option (Tip Hash)) :=
  match readTip 32 bin 0 with
  | .ok (tip, _) => .ok (tip.map (fun tip => ⟨hash tip.txid, tip.start, tip.proof⟩))
  | .error _ => .error "the cursor's bytes are not the layout read"

variable [DecidableEq Hash] (sha256d : List UInt8 → Hash)

/-- The subject's bytes out of a tail that starts with them, held to its txid. -/
def subjectRaw (tail : List UInt8) (txid : Hash) : Except String (List UInt8) :=
  match rawTxLen 32 (tail.length + 1) tail with
  | .ok length =>
    if sha256d (tail.take length) = txid then .ok (tail.take length)
    else .error "the subject read back is not the one verified"
  | .error _ => .error "the subject read back is not the one verified"

theorem subjectRaw_hash {tail raw : List UInt8} {txid : Hash} (read : subjectRaw sha256d tail txid = .ok raw) :
    sha256d raw = txid ∧ raw <+: tail := by
  unfold subjectRaw at read
  split at read
  · split at read
    · rename_i same
      cases read
      exact ⟨same, List.take_prefix _ _⟩
    · cases read
  · cases read

/-- Out of a transaction and what follows it comes that transaction, where the txid is its hash, and nothing else. -/
theorem subjectRaw_append (t : RawTx) (s : List UInt8) (held : (t.bytes ++ s).length < 2 ^ 31) (txid : Hash) :
    subjectRaw sha256d (t.bytes ++ s) txid =
      if sha256d t.bytes = txid then .ok t.bytes else .error "the subject read back is not the one verified" := by
  have read : rawTxLen 32 ((t.bytes ++ s).length + 1) (t.bytes ++ s) = .ok t.bytes.length :=
    rawTxLen_append (room_of_held (by decide) held) (Nat.lt_succ_self _)
  rw [subjectRaw, read]
  simp only [List.take_left]

end

end MessageRelay.Door
