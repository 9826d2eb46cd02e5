import MessageRelay.Library.JsonGrammar

/-! Strings and integers as a printer of JSON writes them, derived by the grammar as what they stand for. -/

namespace MessageRelay.Library.Json

theorem utf8Bytes_ofList (chars : List Char) : utf8Bytes (String.ofList chars) = chars.flatMap String.utf8EncodeChar := by
  simp [utf8Bytes, List.utf8Encode]

theorem utf8Bytes_append (s t : String) : utf8Bytes (s ++ t) = utf8Bytes s ++ utf8Bytes t := by
  simp [utf8Bytes]

theorem utf8Bytes_length (s : String) : (utf8Bytes s).length = s.utf8ByteSize := by
  rw [← String.size_toByteArray]
  rfl

theorem utf8Bytes_toList (s : String) : utf8Bytes s = s.toList.flatMap String.utf8EncodeChar := by
  rw [← utf8Bytes_ofList, String.ofList_toList]

theorem utf8EncodeChar_ascii {c : Char} (ascii : c.toNat < 0x80) : String.utf8EncodeChar c = [UInt8.ofNat c.toNat] := by
  have single : c.utf8Size = 1 := Char.utf8Size_eq_one_iff.mpr (by
    rw [UInt32.le_iff_toNat_le]
    exact Nat.le_of_lt_succ ascii)
  rw [String.utf8EncodeChar_eq_singleton single]
  rfl

/-- A character past ASCII is written with no byte of ASCII. -/
theorem utf8EncodeChar_high {c : Char} (high : 0x80 ≤ c.toNat) : ∀ b ∈ String.utf8EncodeChar c, 0x80 ≤ b := by
  have beyond : c.utf8Size ≠ 1 := by
    intro single
    have low := Char.utf8Size_eq_one_iff.mp single
    rw [UInt32.le_iff_toNat_le] at low
    exact absurd (high.trans low) (by decide)
  have lead (b m mark : UInt8) (set : 0x80 ≤ mark) : 0x80 ≤ (b &&& m ||| mark) := by
    rw [UInt8.le_iff_toNat_le] at set ⊢
    rw [UInt8.toNat_or]
    exact set.trans Nat.right_le_or
  have tail (b : UInt8) : 0x80 ≤ (b &&& 0x3f ||| 0x80) := lead b _ _ (by decide)
  rcases c.utf8Size_eq with one | two | three | four
  · exact absurd one beyond
  · rw [String.utf8EncodeChar_eq_cons_cons two]
    simp only [List.mem_cons, List.not_mem_nil, or_false]
    rintro b (rfl | rfl)
    · exact lead _ _ _ (by decide)
    · exact tail _
  · rw [String.utf8EncodeChar_eq_cons_cons_cons three]
    simp only [List.mem_cons, List.not_mem_nil, or_false]
    rintro b (rfl | rfl | rfl)
    · exact lead _ _ _ (by decide)
    · exact tail _
    · exact tail _
  · rw [String.utf8EncodeChar_eq_cons_cons_cons_cons four]
    simp only [List.mem_cons, List.not_mem_nil, or_false]
    rintro b (rfl | rfl | rfl | rfl)
    · exact lead _ _ _ (by decide)
    · exact tail _
    · exact tail _
    · exact tail _

def hexByte (n : Nat) : UInt8 := if n < 10 then UInt8.ofNat (0x30 + n) else UInt8.ofNat (0x57 + n)

/-- One byte of a string as a printer writes it. -/
def escapeByte (b : UInt8) : Text :=
  if b = 0x08 then [backslash, 0x62]
  else if b = 0x09 then [backslash, 0x74]
  else if b = 0x0a then [backslash, 0x6e]
  else if b = 0x0c then [backslash, 0x66]
  else if b = 0x0d then [backslash, 0x72]
  else if b = quote ∨ b = backslash then [backslash, b]
  else if b < 0x20 then [backslash, 0x75, 0x30, 0x30, hexByte (b.toNat / 16), hexByte (b.toNat % 16)]
  else [b]

theorem hexValue_hexByte {n : Nat} (nibble : n < 16) : hexValue (hexByte n) = some n := by
  revert nibble
  revert n
  decide

theorem encodePoint_ascii {n : Nat} (ascii : n < 0x80) : encodePoint n = [UInt8.ofNat n] := by
  have valid : (Char.ofNat n).toNat = n := by
    rw [Char.toNat_ofNat, if_pos (Or.inl (by omega))]
  have whole := utf8EncodeChar_ascii (c := Char.ofNat n) (by rwa [valid])
  rw [encodePoint, show (Char.ofNat n).toString = String.ofList [Char.ofNat n] from rfl, utf8Bytes_ofList, valid] at *
  simp [whole]

theorem readPiece_escapeByte (b : UInt8) (rest : Text) : readPiece (escapeByte b ++ rest) = some ([b], rest) := by
  by_cases short : b ∈ [0x08, 0x09, 0x0a, 0x0c, 0x0d, quote, backslash]
  · simp only [List.mem_cons, List.not_mem_nil, or_false] at short
    rcases short with rfl | rfl | rfl | rfl | rfl | rfl | rfl <;> rfl
  · simp only [List.mem_cons, List.not_mem_nil, or_false, not_or] at short
    obtain ⟨h8, h9, ha, hc, hd, hq, hb⟩ := short
    rw [escapeByte, if_neg h8, if_neg h9, if_neg ha, if_neg hc, if_neg hd, if_neg (not_or.mpr ⟨hq, hb⟩)]
    by_cases control : b < 0x20
    · have small : b.toNat < 0x20 := UInt8.lt_iff_toNat_lt.mp control
      have zero : hexValue 0x30 = some 0 := rfl
      have unit : hexUnit (0x30 :: 0x30 :: hexByte (b.toNat / 16) :: hexByte (b.toNat % 16) :: rest) =
          some (b.toNat, rest) := by
        simp only [hexUnit, zero, hexValue_hexByte (show b.toNat / 16 < 16 by omega),
          hexValue_hexByte (Nat.mod_lt b.toNat (by decide : 0 < 16)), Option.bind_eq_bind, Option.bind_some,
          Option.pure_def, Option.some.injEq, Prod.mk.injEq, and_true]
        omega
      have point : readPoint (0x30 :: 0x30 :: hexByte (b.toNat / 16) :: hexByte (b.toNat % 16) :: rest) =
          some ([b], rest) := by
        rw [readPoint, unit]
        simp only
        rw [if_neg (by omega), if_neg (by omega), encodePoint_ascii (by omega), UInt8.ofNat_toNat]
      rw [if_pos control]
      exact point
    · rw [if_neg control]
      simp [readPiece, hb, control]

theorem unescape_piece {text piece rest : Text} (taken : readPiece text = some (piece, rest)) :
    unescape text = (unescape rest).map (piece ++ ·) := by
  cases text with
  | nil => cases taken
  | cons b more =>
    rw [unescape]
    split
    · next stuck => simp [taken] at stuck
    · next other =>
      rw [taken] at other
      cases other
      rfl

theorem closing_escapeByte (b : UInt8) (rest : Text) :
    closing (escapeByte b ++ rest) = (closing rest).map (fun (inner, rest) => (escapeByte b ++ inner, rest)) := by
  by_cases short : b ∈ [0x08, 0x09, 0x0a, 0x0c, 0x0d, quote, backslash]
  · simp only [List.mem_cons, List.not_mem_nil, or_false] at short
    rcases short with rfl | rfl | rfl | rfl | rfl | rfl | rfl <;> exact closing_escape _ rest
  · simp only [List.mem_cons, List.not_mem_nil, or_false, not_or] at short
    obtain ⟨h8, h9, ha, hc, hd, hq, hb⟩ := short
    rw [escapeByte, if_neg h8, if_neg h9, if_neg ha, if_neg hc, if_neg hd, if_neg (not_or.mpr ⟨hq, hb⟩)]
    split
    · have plain (n : Nat) (nibble : n < 16) : hexByte n ≠ quote ∧ hexByte n ≠ backslash := by
        revert nibble
        revert n
        decide
      have high := plain (b.toNat / 16) (by have := b.toNat_lt; omega)
      have low := plain (b.toNat % 16) (Nat.mod_lt _ (by decide))
      simp only [List.cons_append, List.nil_append, closing_escape]
      rw [closing_plain (by decide) (by decide), closing_plain (by decide) (by decide), closing_plain high.1 high.2,
        closing_plain low.1 low.2]
      simp only [Option.map_map]
      rfl
    · exact closing_plain hq hb rest

/-- A string as a printer writes it. -/
def quotedText (s : String) : Text := quote :: ((utf8Bytes s).flatMap escapeByte ++ [quote])

theorem quoted_quotedText (s : String) : Quoted s (quotedText s) := by
  refine ⟨(utf8Bytes s).flatMap escapeByte, rfl, fun rest => ?_, ?_⟩
  · induction utf8Bytes s with
    | nil => exact closing_quote rest
    | cons b more ih => simp [closing_escapeByte, ih]
  · induction utf8Bytes s with
    | nil => exact unescape.eq_1
    | cons b more ih => simp [unescape_piece (readPiece_escapeByte b _), ih]

/-- A character a printer writes as it is. -/
def isPlain (c : Char) : Bool := 0x20 ≤ c.toNat && c.toNat < 0x80 && c != '"' && c != '\\'

/-- A string of such characters is written as it is. -/
theorem quotedText_plain {s : String} (plain : ∀ c ∈ s.toList, isPlain c = true) :
    quotedText s = quote :: (utf8Bytes s ++ [quote]) := by
  have each : ∀ c ∈ s.toList, (String.utf8EncodeChar c).flatMap escapeByte = String.utf8EncodeChar c := by
    intro c member
    have known := plain c member
    simp only [isPlain, Bool.and_eq_true, decide_eq_true_eq, bne_iff_ne] at known
    have all : ∀ n < 0x80, 0x20 ≤ n → Char.ofNat n ≠ '"' → Char.ofNat n ≠ '\\' →
        escapeByte (UInt8.ofNat n) = [UInt8.ofNat n] := by decide
    rw [utf8EncodeChar_ascii known.1.1.2, List.flatMap_singleton]
    refine all c.toNat known.1.1.2 known.1.1.1 ?_ ?_ <;> rw [Char.ofNat_toNat]
    · exact known.1.2
    · exact known.2
  rw [quotedText, utf8Bytes_toList, List.flatMap_assoc, List.flatMap_congr each]

theorem utf8Bytes_ascii {s : String} (ascii : ∀ c ∈ s.toList, c.toNat < 0x80) :
    utf8Bytes s = s.toList.map (fun c => UInt8.ofNat c.toNat) := by
  rw [utf8Bytes_toList, List.map_eq_flatMap]
  exact List.flatMap_congr (fun c member => utf8EncodeChar_ascii (ascii c member))

theorem isNumeric_ascii {b : UInt8} (numeric : isNumeric b = true) : b.toNat < 0x80 := by
  have all : ∀ n < 256, isNumeric (UInt8.ofNat n) = true → n < 0x80 := by decide +kernel
  exact all b.toNat b.toNat_lt (by rwa [UInt8.ofNat_toNat])

theorem utf8Bytes_numberText {token : Text} (ascii : ∀ b ∈ token, b.toNat < 0x80) :
    utf8Bytes (numberText token) = token := by
  have low : ∀ n < 0x80, String.utf8EncodeChar (Char.ofNat n) = [UInt8.ofNat n] := by decide
  have back : ∀ b ∈ token, String.utf8EncodeChar (Char.ofNat b.toNat) = [b] := by
    intro b member
    rw [low _ (ascii b member), UInt8.ofNat_toNat]
  rw [numberText, utf8Bytes_ofList, List.flatMap_map, List.flatMap_congr back, List.flatMap_singleton']

theorem numberText_utf8Bytes {s : String} (ascii : ∀ c ∈ s.toList, c.toNat < 0x80) : numberText (utf8Bytes s) = s := by
  have back : ∀ c ∈ s.toList, ((fun b : UInt8 => Char.ofNat b.toNat) ∘ fun c => UInt8.ofNat c.toNat) c = id c := by
    intro c member
    have low := ascii c member
    rw [Function.comp_apply, UInt8.toNat_ofNat_of_lt' (lt_trans low (by decide)), Char.ofNat_toNat, id]
  rw [numberText, utf8Bytes_ascii ascii, List.map_map, List.map_congr_left back, List.map_id, String.ofList_toList]

theorem utf8Bytes_injective {s t : String} (same : utf8Bytes s = utf8Bytes t) : s = t := by
  have first : fromUtf8 (utf8Bytes s) = some s := fromUtf8_eq_some.mpr rfl
  rw [same, fromUtf8_eq_some.mpr rfl] at first
  exact (Option.some.inj first).symm

/-- A number's text is ASCII. -/
theorem numberText_of_isNumber {digits : String} (number : isNumber (utf8Bytes digits) = true) :
    numberText (utf8Bytes digits) = digits :=
  utf8Bytes_injective (utf8Bytes_numberText (fun b member => isNumeric_ascii (isNumber_numeric number b member)))

/-- No zero leads the digits of a positive number. -/
theorem toDigits_head {n : Nat} (positive : 0 < n) : (Nat.toDigits 10 n).head? ≠ some '0' := by
  induction n using Nat.strong_induction_on with
  | _ n ih =>
    by_cases single : n < 10
    · rw [Nat.toDigits_of_lt_base single]
      simp
      omega
    · rw [Nat.toDigits_of_base_le (by decide) (by omega), List.head?_append_of_ne_nil _ Nat.toDigits_ne_nil]
      exact ih (n / 10) (by omega) (by omega)

theorem toList_toString (n : Nat) : (toString n).toList = Nat.toDigits 10 n := by
  rw [Nat.toString_eq_repr, Nat.toList_repr]

theorem toString_digit {n : Nat} {c : Char} (member : c ∈ (toString n).toList) : 0x30 ≤ c.toNat ∧ c.toNat ≤ 0x39 := by
  rw [toList_toString] at member
  have digit := Nat.isDigit_of_mem_toDigits (by decide) (by decide) member
  simpa [Char.isDigit, UInt32.le_iff_toNat_le] using digit

theorem numberText_toString (n : Nat) : numberText (utf8Bytes (toString n)) = toString n :=
  numberText_utf8Bytes (fun _ member => Nat.lt_of_le_of_lt (toString_digit member).2 (by decide))

/-- The digits of a natural number are a number's text. -/
theorem isNumber_toString (n : Nat) : isNumber (utf8Bytes (toString n)) = true := by
  have ascii : ∀ c ∈ (toString n).toList, c.toNat < 0x80 := fun _ member =>
    Nat.lt_of_le_of_lt (toString_digit member).2 (by decide)
  have digits : ∀ b ∈ utf8Bytes (toString n), isDigit b = true := by
    rw [utf8Bytes_ascii ascii, List.forall_mem_map]
    intro c member
    have bounds := toString_digit member
    simp only [isDigit, Bool.and_eq_true, decide_eq_true_eq, UInt8.le_iff_toNat_le,
      UInt8.toNat_ofNat_of_lt' (Nat.lt_of_le_of_lt bounds.2 (by decide))]
    exact bounds
  have all : (utf8Bytes (toString n)).takeWhile isDigit = utf8Bytes (toString n) := List.takeWhile_eq_self_iff.mpr digits
  have none' : (utf8Bytes (toString n)).dropWhile isDigit = [] := List.dropWhile_eq_nil_iff.mpr digits
  have whole : isUnsigned (utf8Bytes (toString n)) = true := by
    rw [isUnsigned, all, none']
    cases named : utf8Bytes (toString n) with
    | nil =>
      rw [utf8Bytes_ascii ascii, List.map_eq_nil_iff, toList_toString] at named
      exact absurd named Nat.toDigits_ne_nil
    | cons d more =>
      simp only [isFraction, Bool.and_true, Bool.or_eq_true, bne_iff_ne, ne_eq, List.isEmpty_iff]
      rcases Nat.eq_zero_or_pos n with rfl | positive
      · right
        have zero : utf8Bytes (toString 0) = [0x30] := by
          rw [utf8Bytes_ascii ascii, toList_toString, Nat.toDigits_zero]
          rfl
        rw [zero] at named
        cases named
        rfl
      · left
        rintro rfl
        have head := toDigits_head positive
        rw [utf8Bytes_ascii ascii, toList_toString] at named
        cases chars : Nat.toDigits 10 n with
        | nil => exact Nat.toDigits_ne_nil chars
        | cons c rest =>
          rw [chars] at named head
          have member : c ∈ (toString n).toList := by rw [toList_toString, chars]; exact List.mem_cons_self
          have bounds := toString_digit member
          have same := congrArg UInt8.toNat (List.cons.inj named).1
          rw [UInt8.toNat_ofNat_of_lt' (Nat.lt_of_le_of_lt bounds.2 (by decide))] at same
          exact head (congrArg some (Char.toNat_inj.mp same))
  cases named : utf8Bytes (toString n) with
  | nil =>
    rw [named] at whole
    cases whole
  | cons b more =>
    rw [isNumber, if_neg, ← named]
    · exact whole
    · rintro rfl
      exact absurd (digits 0x2d (named ▸ List.mem_cons_self)) (by decide)

end MessageRelay.Library.Json
