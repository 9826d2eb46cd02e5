import Mathlib

/-! The bytes of the session lane: hexadecimal text, the constant-time comparison, the keyed hash of
a frame and the reasons of a refusal. SHA-256 and HMAC-SHA256 belong to the key library and are
parameters here. -/

namespace MessageRelay.Lane

abbrev Bytes := List UInt8

abbrev Bytes32 := List.Vector UInt8 32

/-- The two hashes the lane takes from the key library. -/
structure Crypto where
  sha256 : Bytes → Bytes32
  sha256Hmac : Bytes32 → Bytes → Bytes32

def utf8 (text : String) : Bytes := text.toUTF8.data.toList

theorem utf8_injective : Function.Injective utf8 := by
  intro a b same
  have bytes : a.toUTF8 = b.toUTF8 := ByteArray.ext (Array.toList_inj.mp same)
  exact String.toByteArray_inj.mp bytes

def hexDigit (c : Char) : Option Nat :=
  if '0' ≤ c ∧ c ≤ '9' then some (c.toNat - '0'.toNat)
  else if 'a' ≤ c ∧ c ≤ 'f' then some (c.toNat - 'a'.toNat + 10)
  else if 'A' ≤ c ∧ c ≤ 'F' then some (c.toNat - 'A'.toNat + 10)
  else none

def hexDecodeChars : List Char → Option Bytes
  | [] => some []
  | [_] => none
  | hi :: lo :: rest =>
    match hexDigit hi, hexDigit lo, hexDecodeChars rest with
    | some h, some l, some bytes => some (UInt8.ofNat (16 * h + l) :: bytes)
    | _, _, _ => none

def hexDecode (text : String) : Option Bytes := hexDecodeChars text.toList

def hex32 (text : String) : Option Bytes32 :=
  match hexDecode text with
  | some bytes => if sized : bytes.length = 32 then some ⟨bytes, sized⟩ else none
  | none => none

def hexOfNibble (n : Nat) : Char := Char.ofNat (if n < 10 then '0'.toNat + n else 'a'.toNat + (n - 10))

def hexEncode (bytes : Bytes) : String :=
  String.ofList (bytes.flatMap (fun b => [hexOfNibble (b.toNat / 16), hexOfNibble (b.toNat % 16)]))

/-- Every pair of bytes is folded into the difference, wherever the first mismatch is. -/
def constantTimeEq (a b : Bytes) : Bool :=
  if a.length ≠ b.length then false
  else (a.zip b).foldl (fun diff pair => diff ||| (pair.1 ^^^ pair.2)) 0 == 0

theorem foldl_diff_eq_zero {a b : Bytes} (sized : a.length = b.length) (diff : UInt8) :
    (a.zip b).foldl (fun diff pair => diff ||| (pair.1 ^^^ pair.2)) diff = 0 ↔ diff = 0 ∧ a = b := by
  induction a generalizing b diff with
  | nil =>
    cases b with
    | nil => simp
    | cons y ys => simp at sized
  | cons x xs ih =>
    cases b with
    | nil => simp at sized
    | cons y ys =>
      have tails : xs.length = ys.length := by simpa using sized
      simp only [List.zip_cons_cons, List.foldl_cons, ih tails, List.cons.injEq]
      have step : (diff ||| (x ^^^ y)) = 0 ↔ diff = 0 ∧ x = y := by
        rw [UInt8.or_eq_zero_iff, UInt8.xor_eq_zero_iff]
      rw [step, and_assoc]

@[simp] theorem constantTimeEq_iff (a b : Bytes) : constantTimeEq a b = true ↔ a = b := by
  unfold constantTimeEq
  split
  next differ =>
    simp only [Bool.false_eq_true, false_iff]
    intro same
    exact differ (congrArg List.length same)
  next sized =>
    simp [foldl_diff_eq_zero (not_not.mp sized)]

/-- The eight bytes of a counter, least significant first. -/
def toLeBytes (n : Nat) : Bytes :=
  (List.range 8).map (fun i => UInt8.ofNat (n / 256 ^ i))

def frameMacOverDigest (crypto : Crypto) (key : Bytes32) (n : Nat) (e : String) (digest : Bytes32) :
    Bytes32 :=
  crypto.sha256Hmac key (toLeBytes n ++ utf8 e ++ [0] ++ digest.toList)

def frameMac (crypto : Crypto) (key : Bytes32) (n : Nat) (e d : String) : Bytes32 :=
  frameMacOverDigest crypto key n e (crypto.sha256 (utf8 d))

def toAsciiUppercase (text : String) : String := String.ofList (text.toList.map Char.toUpper)

def toAsciiLowercase (text : String) : String := String.ofList (text.toList.map Char.toLower)

def httpEvent (method pathAndQuery : String) : String :=
  toAsciiUppercase method ++ " " ++ pathAndQuery

inductive Refusal where
  | unknownSession
  | expired
  | replay
  | badMac
  | malformed
  deriving DecidableEq, Repr

def Refusal.asStr : Refusal → String
  | .unknownSession => "unknown-session"
  | .expired => "expired"
  | .replay => "replay"
  | .badMac => "bad-mac"
  | .malformed => "malformed"

def sessionIdleMs : Nat := 60 * 60 * 1000

def laneMaxLifetimeMs : Nat := 12 * 60 * 60 * 1000

def mirrorRefreshSlackMs : Nat := 60 * 1000

/-- Addition on 64-bit words that stops at the largest. -/
def saturatingAdd (a b : Nat) : Nat := min (a + b) (2 ^ 64 - 1)

end MessageRelay.Lane
