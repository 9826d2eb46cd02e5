import Mathlib.Data.List.Basic

/-! Bytes as the text of a URL: the unreserved characters stand for themselves, every other byte is written `%` and two
hexadecimal digits. What is written is read back, and holds no character that separates the parts of a URL. -/

namespace MessageRelay.Library

/-- The characters a URL never writes otherwise. -/
def unreserved (c : Char) : Bool :=
  ('A' ≤ c && c ≤ 'Z') || ('a' ≤ c && c ≤ 'z') || ('0' ≤ c && c ≤ '9') || c = '-' || c = '_' || c = '.' || c = '~'

def upperHex (n : Nat) : Char := if n < 10 then Char.ofNat (48 + n) else Char.ofNat (55 + n)

def upperHexValue (c : Char) : Option Nat :=
  if '0' ≤ c ∧ c ≤ '9' then some (c.toNat - 48)
  else if 'A' ≤ c ∧ c ≤ 'F' then some (c.toNat - 55)
  else none

def percentByte (b : UInt8) : List Char :=
  let c := Char.ofNat b.toNat
  if unreserved c then [c] else ['%', upperHex (b.toNat / 16), upperHex (b.toNat % 16)]

def percentEncode (bytes : List UInt8) : List Char := bytes.flatMap percentByte

def percentDecode : List Char → Option (List UInt8)
  | [] => some []
  | '%' :: high :: low :: rest => do
    let high ← upperHexValue high
    let low ← upperHexValue low
    let bytes ← percentDecode rest
    return UInt8.ofNat (16 * high + low) :: bytes
  | c :: rest =>
    if c = '%' then none
    else do
      let bytes ← percentDecode rest
      return UInt8.ofNat c.toNat :: bytes

theorem percentDecode_plain {c : Char} (plain : c ≠ '%') (rest : List Char) :
    percentDecode (c :: rest) = (percentDecode rest).map (UInt8.ofNat c.toNat :: ·) := by
  rw [percentDecode, if_neg plain]
  · cases percentDecode rest <;> rfl
  · intro high low rest' mark
    exact absurd mark plain

theorem upperHexValue_upperHex {n : Nat} (small : n < 16) : upperHexValue (upperHex n) = some n := by
  have all : ∀ n < 16, upperHexValue (upperHex n) = some n := by decide
  exact all n small

theorem percentDecode_byte (b : UInt8) (rest : List Char) :
    percentDecode (percentByte b ++ rest) = (percentDecode rest).map (b :: ·) := by
  have small : b.toNat < 256 := b.toNat_lt
  rw [percentByte]
  split
  · rename_i stands
    have itself : ∀ n < 256, unreserved (Char.ofNat n) = true → Char.ofNat n ≠ '%' ∧ (Char.ofNat n).toNat = n := by
      decide +kernel
    obtain ⟨plain, same⟩ := itself b.toNat small stands
    rw [List.singleton_append, percentDecode_plain plain, same, UInt8.ofNat_toNat]
  · have high : b.toNat / 16 < 16 := by omega
    have low : b.toNat % 16 < 16 := by omega
    have whole : 16 * (b.toNat / 16) + b.toNat % 16 = b.toNat := Nat.div_add_mod b.toNat 16
    simp only [List.cons_append, List.nil_append, percentDecode, upperHexValue_upperHex high,
      upperHexValue_upperHex low, Option.bind_eq_bind, Option.bind_some, whole, UInt8.ofNat_toNat]
    cases percentDecode rest <;> rfl

/-- What is written is read back. -/
theorem percentDecode_encode (bytes : List UInt8) : percentDecode (percentEncode bytes) = some bytes := by
  induction bytes with
  | nil => rfl
  | cons b rest ih =>
    rw [percentEncode, List.flatMap_cons, percentDecode_byte]
    rw [percentEncode] at ih
    rw [ih]
    rfl

theorem percentEncode_injective {bytes bytes' : List UInt8} (same : percentEncode bytes = percentEncode bytes') :
    bytes = bytes' := by
  have read := congrArg percentDecode same
  rw [percentDecode_encode, percentDecode_encode] at read
  exact Option.some.inj read

theorem mem_percentByte {b : UInt8} {c : Char} (member : c ∈ percentByte b) : unreserved c = true ∨ c = '%' := by
  have digit : ∀ n < 16, unreserved (upperHex n) = true := by decide
  have small : b.toNat < 256 := b.toNat_lt
  rw [percentByte] at member
  split at member
  · rename_i stands
    rw [List.mem_singleton.mp member]
    exact .inl stands
  · simp only [List.mem_cons, List.not_mem_nil, or_false] at member
    rcases member with rfl | rfl | rfl
    · exact .inr rfl
    · exact .inl (digit _ (by omega))
    · exact .inl (digit _ (by omega))

/-- A separator of a URL is nowhere in what is written. -/
theorem not_mem_percentEncode {c : Char} (separates : unreserved c = false) (plain : c ≠ '%') (bytes : List UInt8) :
    c ∉ percentEncode bytes := by
  intro member
  obtain ⟨b, -, inside⟩ := List.mem_flatMap.mp member
  rcases mem_percentByte inside with stands | mark
  · rw [separates] at stands
    cases stands
  · exact plain mark

end MessageRelay.Library
