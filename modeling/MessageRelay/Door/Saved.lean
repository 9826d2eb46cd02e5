import Mathlib

/-! The door's state for one object at rest and its bytes: the stamp of the object, the phase, the roots asked, and the
reader's own cursor behind them. -/

namespace MessageRelay.Door

/-- What tells one upload of an object from another. An etag's length is a 32-bit `usize`. -/
structure Stamp where
  size : UInt64
  etag : String
  short : etag.utf8ByteSize < 2 ^ 32
  deriving DecidableEq

inductive Phase where
  | structural
  | scripts
  | roots
  deriving DecidableEq, Repr

def Phase.byte : Phase → UInt8
  | .structural => 0
  | .scripts => 1
  | .roots => 2

def Phase.of (byte : UInt8) : Option Phase := [Phase.structural, .scripts, .roots].find? (fun phase => phase.byte = byte)

structure Rest (Cursor : Type) where
  stamp : Stamp
  phase : Phase
  rootsAsked : UInt64
  cursor : Cursor

/-- The reader's own cursor bytes. -/
structure CursorCodec (Cursor : Type) where
  toBinary : Cursor → List UInt8
  fromBinary : List UInt8 → Option Cursor

/-- So many bytes of a number, the low one first. -/
def leBytes : Nat → Nat → List UInt8
  | 0, _ => []
  | width + 1, n => UInt8.ofNat (n % 256) :: leBytes width (n / 256)

def ofLeBytes (bytes : List UInt8) : Nat := bytes.foldr (fun byte n => byte.toNat + 256 * n) 0

def textBytes (s : String) : List UInt8 := s.toByteArray.data.toList

def textOfBytes (bytes : List UInt8) : Option String := String.fromUTF8? ⟨bytes.toArray⟩

/-- `RMBD2`. -/
def stateMagic : List UInt8 := [0x52, 0x4d, 0x42, 0x44, 0x32]

/-- `BSC2`, a cursor of an older reader. -/
def oldCursor : List UInt8 := [0x42, 0x53, 0x43, 0x32]

def splitAtChecked (n : Nat) (bytes : List UInt8) : Option (List UInt8 × List UInt8) :=
  if n ≤ bytes.length then some (bytes.take n, bytes.drop n) else none

section
variable {Cursor : Type} (codec : CursorCodec Cursor)

def Rest.toBinary (rest : Rest Cursor) : List UInt8 :=
  stateMagic ++ [rest.phase.byte] ++ leBytes 8 rest.stamp.size.toNat ++ leBytes 8 rest.rootsAsked.toNat ++
    leBytes 4 (textBytes rest.stamp.etag).length ++ textBytes rest.stamp.etag ++ codec.toBinary rest.cursor

/-- The state of its bytes. Anything else is no state. -/
def Rest.fromBinary (bin : List UInt8) : Option (Rest Cursor) := do
  if !stateMagic.isPrefixOf bin then none
  let (head, rest) ← splitAtChecked 21 (bin.drop stateMagic.length)
  let (etagBytes, cursorBytes) ← splitAtChecked (ofLeBytes ((head.drop 17).take 4)) rest
  let etag ← textOfBytes etagBytes
  let phase ← head.head?.bind Phase.of
  let cursor ← (codec.fromBinary cursorBytes).filter (fun _ => !oldCursor.isPrefixOf cursorBytes)
  if short : etag.utf8ByteSize < 2 ^ 32 then
    some ⟨⟨UInt64.ofNat (ofLeBytes ((head.drop 1).take 8)), etag, short⟩, phase,
      UInt64.ofNat (ofLeBytes ((head.drop 9).take 8)), cursor⟩
  else none

end

@[simp] theorem length_leBytes (width n : Nat) : (leBytes width n).length = width := by
  induction width generalizing n with
  | zero => rfl
  | succ width ih => rw [leBytes, List.length_cons, ih]

theorem ofLeBytes_leBytes (width n : Nat) : ofLeBytes (leBytes width n) = n % 256 ^ width := by
  induction width generalizing n with
  | zero => simp [leBytes, ofLeBytes, Nat.mod_one]
  | succ width ih =>
    have step : ofLeBytes (leBytes (width + 1) n) = n % 256 + 256 * ofLeBytes (leBytes width (n / 256)) := by
      simp [leBytes, ofLeBytes]
    rw [step, ih, pow_succ', Nat.mod_mul]

theorem ofLeBytes_of_lt {width n : Nat} (small : n < 256 ^ width) : ofLeBytes (leBytes width n) = n := by
  rw [ofLeBytes_leBytes, Nat.mod_eq_of_lt small]

theorem Phase.of_byte (phase : Phase) : Phase.of phase.byte = some phase := by
  cases phase <;> rfl

theorem textOfBytes_textBytes (s : String) : textOfBytes (textBytes s) = some s := by
  have same : (⟨(textBytes s).toArray⟩ : ByteArray) = s.toByteArray := by simp [textBytes]
  rw [textOfBytes, same, String.fromUTF8?, dif_pos s.isValidUTF8]
  rfl

theorem length_textBytes (s : String) : (textBytes s).length = s.utf8ByteSize := by
  simp [textBytes]

/-- A state that is read back is the one that was saved, with an old reader's cursor it is none. -/
theorem Rest.fromBinary_toBinary {Cursor : Type} (codec : CursorCodec Cursor) (rest : Rest Cursor)
    (faithful : codec.fromBinary (codec.toBinary rest.cursor) = some rest.cursor) :
    Rest.fromBinary codec (rest.toBinary codec) =
      if oldCursor.isPrefixOf (codec.toBinary rest.cursor) then none else some rest := by
  let head : List UInt8 := [rest.phase.byte] ++ (leBytes 8 rest.stamp.size.toNat ++
    (leBytes 8 rest.rootsAsked.toNat ++ leBytes 4 (textBytes rest.stamp.etag).length))
  have whole : rest.toBinary codec =
      stateMagic ++ (head ++ (textBytes rest.stamp.etag ++ codec.toBinary rest.cursor)) := by
    simp [Rest.toBinary, head, List.append_assoc]
  have length : head.length = 21 := by simp [head]
  have size : ofLeBytes ((head.drop 1).take 8) = rest.stamp.size.toNat := by
    have part : (head.drop 1).take 8 = leBytes 8 rest.stamp.size.toNat := by simp [head]
    rw [part, ofLeBytes_of_lt (lt_of_lt_of_eq rest.stamp.size.toNat_lt (by norm_num))]
  have asked : ofLeBytes ((head.drop 9).take 8) = rest.rootsAsked.toNat := by
    have part : (head.drop 9).take 8 = leBytes 8 rest.rootsAsked.toNat := by simp [head]
    rw [part, ofLeBytes_of_lt (lt_of_lt_of_eq rest.rootsAsked.toNat_lt (by norm_num))]
  have etag : ofLeBytes ((head.drop 17).take 4) = (textBytes rest.stamp.etag).length := by
    have front : head = ([rest.phase.byte] ++ (leBytes 8 rest.stamp.size.toNat ++
        leBytes 8 rest.rootsAsked.toNat)) ++ leBytes 4 (textBytes rest.stamp.etag).length := by
      simp [head]
    have part : head.drop 17 = leBytes 4 (textBytes rest.stamp.etag).length := by
      rw [front]
      exact List.drop_left' (by simp)
    rw [part, List.take_of_length_le (by simp), length_textBytes,
      ofLeBytes_of_lt (lt_of_lt_of_eq rest.stamp.short (by norm_num))]
  have magic : stateMagic.isPrefixOf (rest.toBinary codec) = true := by
    rw [whole, List.isPrefixOf_iff_prefix]
    exact List.prefix_append _ _
  have first : splitAtChecked 21 ((rest.toBinary codec).drop stateMagic.length) =
      some (head, textBytes rest.stamp.etag ++ codec.toBinary rest.cursor) := by
    rw [whole, List.drop_left, splitAtChecked, if_pos (by simp [length]), ← length, List.take_left, List.drop_left]
  have second : splitAtChecked (ofLeBytes ((head.drop 17).take 4))
      (textBytes rest.stamp.etag ++ codec.toBinary rest.cursor) =
        some (textBytes rest.stamp.etag, codec.toBinary rest.cursor) := by
    rw [etag, splitAtChecked, if_pos (by simp), List.take_left, List.drop_left]
  have phase : head.head?.bind Phase.of = some rest.phase := by simp [head, Phase.of_byte]
  unfold Rest.fromBinary
  simp only [magic, first, second, textOfBytes_textBytes, phase, faithful, size, asked, Bool.not_true,
    Bool.false_eq_true, if_false, Option.bind_eq_bind, Option.bind_some]
  cases old : oldCursor.isPrefixOf (codec.toBinary rest.cursor) with
  | true => simp
  | false =>
    have kept : (some rest.cursor).filter (fun _ => true) = some rest.cursor := rfl
    simp only [Bool.not_false, kept, Option.bind_some, Bool.false_eq_true, if_false, UInt64.ofNat_toNat]
    exact dif_pos rest.stamp.short

end MessageRelay.Door
