import Mathlib

/-! The text of JSON, over bytes: its grammar and a reader for it. What a reader builds is left to its caller, as are
the numbers it can hold. Nesting is bounded, as a reader bounds it that must not exhaust its stack. -/

namespace MessageRelay.Library.Json

abbrev Text := List UInt8

def utf8Bytes (s : String) : Text := s.toUTF8.data.toList

def fromUtf8 (text : Text) : Option String := String.fromUTF8? ⟨text.toArray⟩

abbrev quote : UInt8 := 0x22
abbrev backslash : UInt8 := 0x5c
abbrev comma : UInt8 := 0x2c
abbrev colon : UInt8 := 0x3a
abbrev openArray : UInt8 := 0x5b
abbrev closeArray : UInt8 := 0x5d
abbrev openObject : UInt8 := 0x7b
abbrev closeObject : UInt8 := 0x7d

def isSpace (b : UInt8) : Bool := b = 0x20 || b = 0x09 || b = 0x0a || b = 0x0d

def skipSpace (text : Text) : Text := text.dropWhile isSpace

/-- A string's text up to its first quote that is not escaped, and what follows that quote. -/
def closing : Text → Option (Text × Text)
  | [] => none
  | b :: rest =>
    if b = quote then some ([], rest)
    else if b = backslash then
      match rest with
      | [] => none
      | e :: rest => (closing rest).map (fun (inner, rest) => (b :: e :: inner, rest))
    else (closing rest).map (fun (inner, rest) => (b :: inner, rest))

def hexValue (b : UInt8) : Option Nat :=
  if 0x30 ≤ b ∧ b ≤ 0x39 then some (b.toNat - 0x30)
  else if 0x61 ≤ b ∧ b ≤ 0x66 then some (b.toNat - 0x61 + 10)
  else if 0x41 ≤ b ∧ b ≤ 0x46 then some (b.toNat - 0x41 + 10)
  else none

def hexUnit : Text → Option (Nat × Text)
  | a :: b :: c :: d :: rest => do
    let a ← hexValue a
    let b ← hexValue b
    let c ← hexValue c
    let d ← hexValue d
    return (((16 * a + b) * 16 + c) * 16 + d, rest)
  | _ => none

def encodePoint (point : Nat) : Text := utf8Bytes (Char.ofNat point).toString

/-- The point a `\u` names. One past the basic plane takes two of them, and half a pair names none. -/
def readPoint (text : Text) : Option (Text × Text) :=
  match hexUnit text with
  | none => none
  | some (unit, rest) =>
    if 0xd800 ≤ unit ∧ unit < 0xdc00 then
      match rest with
      | b :: u :: rest =>
        if b = backslash ∧ u = 0x75 then
          match hexUnit rest with
          | some (low, rest) =>
            if 0xdc00 ≤ low ∧ low < 0xe000 then
              some (encodePoint (0x10000 + (unit - 0xd800) * 0x400 + (low - 0xdc00)), rest)
            else none
          | none => none
        else none
      | _ => none
    else if 0xdc00 ≤ unit ∧ unit < 0xe000 then none
    else some (encodePoint unit, rest)

def shortEscape (b : UInt8) : Option UInt8 :=
  if b = quote ∨ b = backslash ∨ b = 0x2f then some b
  else if b = 0x62 then some 0x08
  else if b = 0x66 then some 0x0c
  else if b = 0x6e then some 0x0a
  else if b = 0x72 then some 0x0d
  else if b = 0x74 then some 0x09
  else none

/-- What the next byte or escape of a string stands for. -/
def readPiece : Text → Option (Text × Text)
  | [] => none
  | b :: rest =>
    if b = backslash then
      match rest with
      | [] => none
      | e :: rest => if e = 0x75 then readPoint rest else (shortEscape e).map (fun c => ([c], rest))
    else if b < 0x20 then none
    else some ([b], rest)

theorem hexUnit_length {text rest : Text} {unit : Nat} (read : hexUnit text = some (unit, rest)) :
    rest.length < text.length := by
  unfold hexUnit at read
  split at read
  · simp only [Option.bind_eq_bind, Option.bind_eq_some_iff, Option.pure_def, Option.some.injEq, Prod.mk.injEq] at read
    obtain ⟨-, -, -, -, -, -, -, -, -, rfl⟩ := read
    simp only [List.length_cons]
    omega
  · cases read

theorem readPoint_length {text point rest : Text} (read : readPoint text = some (point, rest)) :
    rest.length < text.length := by
  unfold readPoint at read
  split at read
  · cases read
  · next unit after first =>
    have shorter := hexUnit_length first
    split at read
    · split at read
      · next b u more =>
        split at read
        · split at read
          · next low last second =>
            have shortest := hexUnit_length second
            split at read
            · simp only [Option.some.injEq, Prod.mk.injEq] at read
              obtain ⟨-, rfl⟩ := read
              simp only [List.length_cons] at shorter
              omega
            · cases read
          · cases read
        · cases read
      · cases read
    · split at read
      · cases read
      · simp only [Option.some.injEq, Prod.mk.injEq] at read
        exact read.2 ▸ shorter

theorem readPiece_length {text piece rest : Text} (read : readPiece text = some (piece, rest)) :
    rest.length < text.length := by
  unfold readPiece at read
  split at read
  · cases read
  · next b more =>
    split at read
    · split at read
      · cases read
      · next e more =>
        split at read
        · have shorter := readPoint_length read
          simp only [List.length_cons]
          omega
        · simp only [Option.map_eq_some_iff, Prod.mk.injEq] at read
          obtain ⟨-, -, -, rfl⟩ := read
          simp only [List.length_cons]
          omega
    · split at read
      · cases read
      · cases read
        simp

/-- The bytes a string's text stands for. -/
def unescape (text : Text) : Option Text :=
  match text with
  | [] => some []
  | b :: rest =>
    match _taken : readPiece (b :: rest) with
    | none => none
    | some (piece, rest) => (unescape rest).map (piece ++ ·)
termination_by text.length
decreasing_by exact readPiece_length _taken

/-- A quoted string at the front of a text. -/
def readString : Text → Option (String × Text)
  | [] => none
  | b :: rest =>
    if b = quote then do
      let (inner, rest) ← closing rest
      let content ← unescape inner
      let s ← fromUtf8 content
      return (s, rest)
    else none

def isDigit (b : UInt8) : Bool := 0x30 ≤ b && b ≤ 0x39

/-- The bytes a number is written with. -/
def isNumeric (b : UInt8) : Bool := isDigit b || b = 0x2b || b = 0x2d || b = 0x2e || b = 0x45 || b = 0x65

def isDigits (text : Text) : Bool := !text.isEmpty && text.all isDigit

def isExponent : Text → Bool
  | [] => true
  | e :: rest =>
    (e = 0x45 || e = 0x65) &&
      match rest with
      | [] => false
      | s :: digits => if s = 0x2b || s = 0x2d then isDigits digits else isDigits rest

def isFraction : Text → Bool
  | [] => true
  | b :: rest =>
    if b = 0x2e then isDigits (rest.takeWhile isDigit) && isExponent (rest.dropWhile isDigit)
    else isExponent (b :: rest)

/-- No digit comes before a zero that leads. -/
def isUnsigned (text : Text) : Bool :=
  match text.takeWhile isDigit with
  | [] => false
  | d :: more => (d != 0x30 || more.isEmpty) && isFraction (text.dropWhile isDigit)

def isNumber : Text → Bool
  | [] => false
  | b :: rest => if b = 0x2d then isUnsigned rest else isUnsigned (b :: rest)

/-- The text of a number, which is ASCII. -/
def numberText (token : Text) : String := String.ofList (token.map (fun b => Char.ofNat b.toNat))

/-- What a reader makes of each kind of value. Names may repeat among the members it is given, which are in order. -/
structure Builder (α : Type) where
  null : α
  bool : Bool → α
  number : String → α
  string : String → α
  array : List α → α
  object : List (String × α) → α

/-- The numbers a reader can hold, and the text it prints each with. Those of 64 bits it holds and prints as they stand.
What it prints of any other is a number's text that it holds again, and one of digits alone it has read as such. -/
structure Range where
  holds : Text → Bool
  printed : Text → Text
  small : ∀ n < 2 ^ 64, holds (utf8Bytes (toString n)) = true
  whole : ∀ n < 2 ^ 64, printed (utf8Bytes (toString n)) = utf8Bytes (toString n)
  prints : ∀ token, isNumber token = true → holds token = true →
    isNumber (printed token) = true ∧ holds (printed token) = true
  apart : ∀ token, isNumber token = true → holds token = true →
    (printed token).all isDigit = true → printed token = token

/-- Every number is held, and printed as it was written. -/
def everyNumber : Range where
  holds _ := true
  printed token := token
  small _ _ := rfl
  whole _ _ := rfl
  prints _ number _ := ⟨number, rfl⟩
  apart _ _ _ _ := rfl

/-- A number's text, read and printed. -/
def Range.reprint (range : Range) (digits : String) : String := numberText (range.printed (utf8Bytes digits))

def nullText : Text := [0x6e, 0x75, 0x6c, 0x6c]
def boolText (b : Bool) : Text := if b then [0x74, 0x72, 0x75, 0x65] else [0x66, 0x61, 0x6c, 0x73, 0x65]

section Read
variable {α : Type} (build : Builder α) (range : Range)

def readNumber (text : Text) : Option (α × Text) :=
  let token := text.takeWhile isNumeric
  if isNumber token && range.holds token then
    some (build.number (numberText (range.printed token)), text.dropWhile isNumeric)
  else none

def readScalar (text : Text) : Option (α × Text) :=
  if nullText.isPrefixOf text then some (build.null, text.drop 4)
  else if (boolText true).isPrefixOf text then some (build.bool true, text.drop 4)
  else if (boolText false).isPrefixOf text then some (build.bool false, text.drop 5)
  else
    match readString text with
    | some (s, rest) => some (build.string s, rest)
    | none => readNumber build range text

/-- The items of an array, from its first to its closing bracket. -/
def readItems (read : Text → Option (α × Text)) : Nat → Text → Option (List α × Text)
  | 0, _ => none
  | fuel + 1, text =>
    match read text with
    | none => none
    | some (item, rest) =>
      match skipSpace rest with
      | [] => none
      | b :: rest =>
        if b = comma then (readItems read fuel (skipSpace rest)).map (fun (items, rest) => (item :: items, rest))
        else if b = closeArray then some ([item], rest)
        else none

/-- A member's name and value, and what follows them. -/
def readMember (read : Text → Option (α × Text)) (text : Text) : Option ((String × α) × Text) :=
  match readString text with
  | none => none
  | some (name, rest) =>
    match skipSpace rest with
    | [] => none
    | b :: rest => if b = colon then (read (skipSpace rest)).map (fun (v, rest) => ((name, v), rest)) else none

/-- The members of an object, from its first to its closing brace. -/
def readMembers (read : Text → Option (α × Text)) : Nat → Text → Option (List (String × α) × Text)
  | 0, _ => none
  | fuel + 1, text =>
    match readMember read text with
    | none => none
    | some (member, rest) =>
      match skipSpace rest with
      | [] => none
      | b :: rest =>
        if b = comma then
          (readMembers read fuel (skipSpace rest)).map (fun (members, rest) => (member :: members, rest))
        else if b = closeObject then some ([member], rest)
        else none

def readArray (read : Text → Option (α × Text)) (text : Text) : Option (α × Text) :=
  match skipSpace text with
  | [] => none
  | b :: rest =>
    if b = closeArray then some (build.array [], rest)
    else (readItems read (rest.length + 1) (b :: rest)).map (fun (items, rest) => (build.array items, rest))

def readObject (read : Text → Option (α × Text)) (text : Text) : Option (α × Text) :=
  match skipSpace text with
  | [] => none
  | b :: rest =>
    if b = closeObject then some (build.object [], rest)
    else (readMembers read (rest.length + 1) (b :: rest)).map (fun (members, rest) => (build.object members, rest))

/-- A value at the front of a text, nested no deeper than the bound. -/
def readValue : Nat → Text → Option (α × Text)
  | 0, text => readScalar build range text
  | depth + 1, text =>
    match text with
    | [] => none
    | b :: rest =>
      if b = openArray then readArray build (readValue depth) rest
      else if b = openObject then readObject build (readValue depth) rest
      else readScalar build range (b :: rest)

/-- The whole text as one value. -/
def read (depth : Nat) (text : Text) : Option α :=
  match readValue build range depth (skipSpace text) with
  | none => none
  | some (v, rest) => if skipSpace rest = [] then some v else none

end Read

end MessageRelay.Library.Json
