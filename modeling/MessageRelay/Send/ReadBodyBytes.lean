import MessageRelay.Send.ReadBodyScan

/-! The bytes read from an array's text are those its items are read as, and none where an item is no byte. -/

namespace MessageRelay.Send
open MessageRelay.Lane MessageRelay.Library MessageRelay.Library.Json MessageRelay.Session MessageRelay.Payments

theorem decimalFrom_ge (n : Nat) (digits : Text) : n * 10 ^ digits.length ≤ decimalFrom n digits := by
  induction digits generalizing n with
  | nil => simp [decimalFrom]
  | cons d rest ih =>
    calc n * 10 ^ (d :: rest).length = n * 10 * 10 ^ rest.length := by
          rw [List.length_cons, Nat.pow_succ, Nat.mul_assoc, Nat.mul_comm 10]
      _ ≤ (n * 10 + (d.toNat - 0x30)) * 10 ^ rest.length := Nat.mul_le_mul_right _ (Nat.le_add_right _ _)
      _ ≤ decimalFrom n (d :: rest) := ih _

/-- A token is an integer without sign exactly where all its bytes are digits. -/
theorem asU64_numberText (token : Text) : asU64 (.number (numberText token)) =
    if token ≠ [] ∧ token.all isDigit = true ∧ decimalFrom 0 token < 2 ^ 64 then some (decimalFrom 0 token) else none := by
  have digit : ∀ n < 256, (Char.ofNat n).isDigit = (decide (0x30 ≤ n) && decide (n ≤ 0x39)) := by decide +kernel
  have back : ∀ n < 256, (Char.ofNat n).toNat = n := by decide +kernel
  have chars : (numberText token).toList = token.map (fun b => Char.ofNat b.toNat) := String.toList_ofList
  have value : (numberText token).toList.foldl (fun n c => 10 * n + (c.toNat - 48)) 0 = decimalFrom 0 token := by
    rw [chars, List.foldl_map, decimalFrom]
    congr 1
    funext n b
    rw [back _ b.toNat_lt, Nat.mul_comm]
  have all : (numberText token).toList.all Char.isDigit = token.all isDigit := by
    rw [chars, List.all_map]
    congr 1
    funext b
    simp [digit _ b.toNat_lt, isDigit, UInt8.le_iff_toNat_le]
  have empty : numberText token ≠ "" ↔ token ≠ [] := by
    rw [ne_eq, ne_eq, ← String.toList_inj, chars]
    simp
  simp only [asU64, value, all, empty]

/-- No digit comes after a zero that leads. -/
theorem unled_of_isNumber {d : UInt8} {more : Text} (number : isNumber (d :: more) = true)
    (digits : ∀ c ∈ d :: more, isDigit c = true) : d ≠ 0x30 ∨ more = [] := by
  have plain : d ≠ 0x2d := by
    rintro rfl
    exact absurd (digits _ List.mem_cons_self) (by decide)
  have whole : (d :: more).takeWhile isDigit = d :: more := List.takeWhile_eq_self_iff.mpr digits
  rw [isNumber, if_neg plain, isUnsigned, whole] at number
  simp only [Bool.and_eq_true, Bool.or_eq_true, bne_iff_ne, List.isEmpty_iff] at number
  exact number.1

/-- Digits no zero leads are those of the number they stand for. -/
theorem toDigits_decimalFrom {d : UInt8} {more : Text} (digits : ∀ c ∈ d :: more, isDigit c = true)
    (unled : d ≠ 0x30 ∨ more = []) :
    Nat.toDigits 10 (decimalFrom 0 (d :: more)) = (d :: more).map (fun b => Char.ofNat b.toNat) := by
  have char : ∀ n < 256, isDigit (UInt8.ofNat n) = true → n - 0x30 < 10 ∧ Nat.digitChar (n - 0x30) = Char.ofNat n := by
    decide +kernel
  have digit (b : UInt8) (held : isDigit b = true) :
      b.toNat - 0x30 < 10 ∧ Nat.digitChar (b.toNat - 0x30) = Char.ofNat b.toNat :=
    char b.toNat b.toNat_lt (by rwa [UInt8.ofNat_toNat])
  induction more using List.reverseRecOn with
  | nil =>
    have first := digit d (digits d List.mem_cons_self)
    rw [decimalFrom, List.foldl_cons, List.foldl_nil, Nat.zero_mul, Nat.zero_add, Nat.toDigits_of_lt_base first.1,
      first.2]
    rfl
  | append_singleton front c ih =>
    have last := digit c (digits c (by simp))
    have apart : d ≠ 0x30 := unled.resolve_right (by simp)
    have inside : ∀ b ∈ d :: front, isDigit b = true := fun b member => digits b (by
      rw [← List.cons_append]
      exact List.mem_append_left _ member)
    have front' := ih inside (.inl apart)
    have positive : 0 < decimalFrom 0 (d :: front) := by
      have first := inside d List.mem_cons_self
      simp only [isDigit, Bool.and_eq_true, decide_eq_true_eq, UInt8.le_iff_toNat_le] at first
      have other : d.toNat ≠ 0x30 := fun same => apart (UInt8.toNat_inj.mp same)
      have low : (0x30 : UInt8).toNat = 0x30 := rfl
      have grown := decimalFrom_ge (d.toNat - 0x30) front
      have same : decimalFrom 0 (d :: front) = decimalFrom (d.toNat - 0x30) front := by
        rw [decimalFrom, List.foldl_cons, Nat.zero_mul, Nat.zero_add]
        rfl
      have scaled : 0 < (d.toNat - 0x30) * 10 ^ front.length := Nat.mul_pos (by omega) (Nat.pow_pos (by decide))
      omega
    have shifted : decimalFrom 0 (d :: (front ++ [c])) = 10 * decimalFrom 0 (d :: front) + (c.toNat - 0x30) := by
      rw [← List.cons_append, decimalFrom, List.foldl_append, List.foldl_cons, List.foldl_nil, Nat.mul_comm]
      rfl
    rw [shifted, ← Nat.toDigits_append_toDigits (by decide) positive last.1, front', Nat.toDigits_of_lt_base last.1,
      last.2, ← List.cons_append, List.map_append]
    rfl

theorem toString_decimalFrom {token : Text} (number : isNumber token = true) (all : token.all isDigit = true) :
    utf8Bytes (toString (decimalFrom 0 token)) = token := by
  obtain ⟨d, more, rfl, -⟩ := isNumber_head number
  have digits := List.all_eq_true.mp all
  have whole := toDigits_decimalFrom digits (unled_of_isNumber number digits)
  rw [Nat.toString_eq_ofList_toDigits, whole]
  exact utf8Bytes_numberText (fun b member => isNumeric_ascii (isNumber_numeric number b member))

/-- A printed number is an integer without sign exactly where the number read is, and the same one. -/
theorem asU64_printed {range : Range} {token : Text} (number : isNumber token = true)
    (held : range.holds token = true) :
    asU64 (.number (numberText (range.printed token))) = asU64 (.number (numberText token)) := by
  by_cases same : range.printed token = token
  · rw [same]
  · have digitless : ¬ (range.printed token).all isDigit = true := fun all => same (range.apart token number held all)
    have large : ¬ (token ≠ [] ∧ token.all isDigit = true ∧ decimalFrom 0 token < 2 ^ 64) := by
      rintro ⟨-, all, small⟩
      have whole := range.whole _ small
      rw [toString_decimalFrom number all] at whole
      exact same whole
    rw [asU64_numberText, asU64_numberText, if_neg large, if_neg (fun both => digitless both.2.1)]

theorem byteOf_printed {range : Range} {token : Text} (number : isNumber token = true)
    (held : range.holds token = true) :
    byteOf (.number (numberText (range.printed token))) = byteOf (.number (numberText token)) := by
  rw [byteOf, byteOf, asU64_printed number held]

theorem readByte_digitless {b : UInt8} (other : isDigit b = false) (rest : Text) : readByte (b :: rest) = none := by
  simp [readByte, other]

/-- What the scan makes of the text after an item: another item, or the end of the text. -/
def afterByte (fuel : Nat) (byte : UInt8) (mark : UInt8) (after : Text) : Option Bytes :=
  if mark = comma then (bytesFrom fuel (skipWs after)).map (byte :: ·)
  else if skipWs after = [] then some [byte]
  else none

/-- A number's digits up to a mark, where nothing else of the number is left. -/
theorem readByte_digits {token : Text} (number : isNumber token = true) (all : token.all isDigit = true) {rest : Text}
    (stops : ∀ c ∈ rest.head?, isDigit c = false) :
    readByte (token ++ rest) =
      if decimalFrom 0 token ≤ 255 then some (UInt8.ofNat (decimalFrom 0 token), rest) else none := by
  have digits : ∀ c ∈ token, isDigit c = true := List.all_eq_true.mp all
  have ended : rest.takeWhile isDigit = [] ∧ rest.dropWhile isDigit = rest := by
    cases rest with
    | nil => exact ⟨rfl, rfl⟩
    | cons c later => simp [stops c rfl]
  have taken : (token ++ rest).takeWhile isDigit = token := by
    rw [List.takeWhile_append_of_pos digits, ended.1, List.append_nil]
  have left : (token ++ rest).dropWhile isDigit = rest := by
    rw [List.dropWhile_append_of_pos digits, ended.2]
  obtain ⟨d, more, rfl, -⟩ := isNumber_head number
  have unled := unled_of_isNumber number digits
  have first := digits d List.mem_cons_self
  simp only [isDigit, Bool.and_eq_true, decide_eq_true_eq, UInt8.le_iff_toNat_le] at first
  have long : 3 < (d :: more).length → 255 < decimalFrom 0 (d :: more) := by
    intro many
    have positive : 1 ≤ d.toNat - 0x30 := by
      rcases unled with other | none'
      · have apart : d.toNat ≠ 0x30 := fun same => other (UInt8.toNat_inj.mp same)
        have low : (0x30 : UInt8).toNat = 0x30 := rfl
        omega
      · simp [none'] at many
    have three : 10 ^ 3 ≤ 10 ^ more.length := Nat.pow_le_pow_right (by decide) (by simpa using many)
    have grown := decimalFrom_ge (0 * 10 + (d.toNat - 0x30)) more
    have scaled := Nat.mul_le_mul positive three
    have same : decimalFrom 0 (d :: more) = decimalFrom (0 * 10 + (d.toNat - 0x30)) more := rfl
    rw [Nat.zero_mul, Nat.zero_add] at grown same
    omega
  rw [readByte, taken, left]
  have unled' : ¬ ((d :: more).head? = some 0x30 ∧ 1 < (d :: more).length) := by
    rintro ⟨zero, many⟩
    cases zero
    rcases unled with other | none'
    · exact other rfl
    · simp [none'] at many
  by_cases small : decimalFrom 0 (d :: more) ≤ 255
  · rw [if_pos small, if_neg]
    rintro (many | empty | led | large)
    · exact absurd small (Nat.not_le.mpr (long many))
    · cases empty
    · exact unled' led
    · exact absurd small (Nat.not_le.mpr large)
  · rw [if_neg small, if_pos (.inr (.inr (.inr (Nat.lt_of_not_le small))))]

section
variable {range : Range} {n : Nat}

theorem bytesFrom_none {text : Text} (unread : readByte text = none) (fuel : Nat) : bytesFrom (fuel + 1) text = none := by
  rw [bytesFrom, unread]

/-- A number's text read as a byte, or left where no mark stands. -/
theorem bytesFrom_number {token : Text} (number : isNumber token = true) {w after : Text} (space : Space w) {mark : UInt8}
    (marks : mark = comma ∨ mark = closeArray) (fuel : Nat) :
    bytesFrom (fuel + 1) (token ++ (w ++ mark :: after)) =
      (byteOf (.number (numberText token))).bind (fun byte => afterByte fuel byte mark after) := by
  have syntactic : isSyntax mark = true := by rcases marks with rfl | rfl <;> decide
  have dense : isSpace mark = false := by rcases marks with rfl | rfl <;> decide
  have stops := stops_space space syntactic after
  have ended := skipSpace_append space dense after
  rw [← skipWs_eq] at ended
  by_cases all : token.all isDigit = true
  · have digitless : ∀ c ∈ (w ++ mark :: after).head?, isDigit c = false := by
      intro c member
      have numeric := stops c member
      simp only [isNumeric, Bool.or_eq_false_iff] at numeric
      exact numeric.1.1.1.1.1
    have some' : token ≠ [] := by
      rintro rfl
      cases number
    rw [bytesFrom, readByte_digits number all digitless, byteOf, asU64_numberText]
    by_cases small : decimalFrom 0 token ≤ 255
    · rw [if_pos small, if_pos ⟨some', all, small.trans_lt (by decide)⟩]
      simp only [ended, Option.bind_some, small, if_true, afterByte]
      rcases marks with rfl | rfl
      · rfl
      · simp only [brackets_apart.1, if_false, if_true]
    · rw [if_neg small]
      have unheld : (if token ≠ [] ∧ token.all isDigit = true ∧ decimalFrom 0 token < 2 ^ 64 then
          some (decimalFrom 0 token) else none).bind
            (fun n => if n ≤ 255 then some (UInt8.ofNat n) else none) = none := by
        split
        · exact if_neg small
        · rfl
      rw [unheld]
      rfl
  · have unread : byteOf (.number (numberText token)) = none := by
      rw [byteOf, asU64_numberText, if_neg (fun both => all both.2.1)]
      rfl
    have numeric := isNumber_numeric number
    obtain ⟨r, more, rest, left⟩ : ∃ r more, token.dropWhile isDigit = r :: more ∧ isDigit r = false := by
      cases rest : token.dropWhile isDigit with
      | nil => exact absurd (List.all_eq_true.mpr (List.dropWhile_eq_nil_iff.mp rest)) all
      | cons r more =>
        exact ⟨r, more, rfl, by simpa [rest] using List.head_dropWhile_not (l := token) isDigit (by simp [rest])⟩
    have split : token = token.takeWhile isDigit ++ r :: more := by
      rw [← rest, List.takeWhile_append_dropWhile]
    have last : isNumeric r = true := numeric r (split ▸ List.mem_append_right _ List.mem_cons_self)
    have dropped : (token ++ (w ++ mark :: after)).dropWhile isDigit = r :: (more ++ (w ++ mark :: after)) := by
      rw [split, List.append_assoc, List.dropWhile_append_of_pos (fun c member => List.mem_takeWhile_imp member)]
      exact List.dropWhile_cons_of_neg (by simp [left])
    have solid : isSyntax r = false := Bool.eq_false_iff.mpr (fun syntactic => by
      simp [isSyntax_numeric syntactic] at last)
    simp only [isSyntax, Bool.or_eq_false_iff, decide_eq_false_iff_not] at solid
    have stuck : skipWs (r :: (more ++ (w ++ mark :: after))) = r :: (more ++ (w ++ mark :: after)) := by
      rw [skipWs_eq]
      exact skipSpace_append space_nil solid.1.1.1.1 _
    rw [unread, Option.bind_none, bytesFrom, readByte, dropped]
    split_ifs
    · rfl
    · simp only [stuck, solid.1.1.1.2, solid.1.2, if_false]

/-- One item of an array's text. -/
theorem bytesFrom_value {v : Value} {seg : Text} (derived : Derives Value.builder range n (.value v) seg) {w : Text}
    (space : Space w) (after : Text) {mark : UInt8} (marks : mark = comma ∨ mark = closeArray) (fuel : Nat) :
    bytesFrom (fuel + 1) (seg ++ (w ++ mark :: after)) =
      (byteOf v).bind (fun byte => afterByte fuel byte mark after) := by
  generalize phrase : Phrase.value v = p at derived
  have other {b : UInt8} (digitless : isDigit b = false) (more : Text) (unread : byteOf v = none) :
      bytesFrom (fuel + 1) (b :: more) = (byteOf v).bind (fun byte => afterByte fuel byte mark after) := by
    rw [unread, bytesFrom_none (readByte_digitless digitless more)]
    rfl
  cases derived with
  | null =>
    cases phrase
    exact other (by decide) _ rfl
  | @bool _ b =>
    cases phrase
    cases b <;> exact other (by decide) _ rfl
  | number number held =>
    cases phrase
    have printed : byteOf (Value.builder.number _) = byteOf (.number (numberText seg)) := byteOf_printed number held
    rw [printed]
    exact bytesFrom_number number space marks fuel
  | string quoted =>
    cases phrase
    obtain ⟨inner, rfl, -⟩ := quoted
    exact other (by decide) _ rfl
  | emptyArray | array | emptyObject | object =>
    cases phrase
    exact other (by decide) _ rfl
  | lastItem | item | member | lastMember | members => cases phrase

theorem bytesFrom_items {vs : List Value} {seg : Text} (derived : Derives Value.builder range n (.items vs) seg)
    {fuel : Nat} (enough : seg.length ≤ fuel) : bytesFrom fuel (seg ++ [closeArray]) = vs.mapM byteOf := by
  generalize phrase : Phrase.items vs = p at derived
  induction derived generalizing vs fuel with
  | @lastItem n v seg w item space =>
    cases phrase
    obtain ⟨b, more, rfl, -⟩ := item.head
    obtain ⟨fuel, rfl⟩ : ∃ k, fuel = k + 1 := ⟨fuel - 1, by simp at enough; omega⟩
    rw [List.append_assoc, bytesFrom_value item space _ (.inr rfl)]
    cases read : byteOf v <;> simp [read, afterByte, brackets_apart.1, skipWs]
  | @item n v vs seg w w' more item space space' items _ ih =>
    cases phrase
    obtain ⟨b, first, rfl, -⟩ := item.head
    obtain ⟨c, later, rfl, plain⟩ := items.head
    obtain ⟨fuel, rfl⟩ : ∃ k, fuel = k + 1 := ⟨fuel - 1, by simp at enough; omega⟩
    simp only [isSyntax, Bool.or_eq_false_iff] at plain
    have started := skipSpace_append space' plain.1.1.1.1 (later ++ [closeArray])
    have tail := ih (show (c :: later).length ≤ fuel by simp at enough ⊢; omega) rfl
    have whole := bytesFrom_value item space (w' ++ (c :: later ++ [closeArray])) (.inl rfl) fuel
    simp only [List.append_assoc, List.cons_append] at whole started tail ⊢
    rw [whole, List.mapM_cons]
    cases byteOf v with
    | none => rfl
    | some byte =>
      rw [Option.bind_some, afterByte, if_pos rfl, skipWs_eq, started, tail]
      cases vs.mapM byteOf <;> rfl
  | null | bool | number | string | emptyArray | array | emptyObject | object | member | lastMember | members =>
    cases phrase

/-- A value's text that opens an array is an array's, and the bytes read from it are those its items are read as. -/
theorem arrayBytes_derives {v : Value} {seg : Text} (derived : Derives Value.builder range n (.value v) seg)
    (array : seg.head? = some openArray) : ∃ items, v = .array items ∧ arrayBytes seg = items.mapM byteOf := by
  generalize phrase : Phrase.value v = p at derived
  cases derived with
  | null => cases array
  | @bool _ b => cases b <;> cases array
  | number number =>
    have numeric := isNumber_numeric number
    obtain ⟨b, more, rfl, -⟩ := isNumber_head number
    cases array
    exact absurd (numeric _ List.mem_cons_self) (by decide)
  | string quoted =>
    obtain ⟨inner, rfl, -⟩ := quoted
    cases array
  | @emptyArray n w space =>
    cases phrase
    have ended := skipSpace_append space (b := closeArray) (by decide) []
    refine ⟨[], rfl, ?_⟩
    rw [arrayBytes, List.drop_one, List.tail_cons, skipWs_eq, ended]
    rfl
  | @array n w inside vs space items =>
    cases phrase
    refine ⟨vs, rfl, ?_⟩
    have whole := bytesFrom_items items (show inside.length ≤ (inside ++ [closeArray]).length by simp)
    obtain ⟨b, more, rfl, plain⟩ := items.head
    simp only [isSyntax, Bool.or_eq_false_iff, decide_eq_false_iff_not] at plain
    have started := skipSpace_append space plain.1.1.1.1 (more ++ [closeArray])
    rw [List.cons_append] at whole ⊢
    rw [arrayBytes, List.drop_one, List.tail_cons, skipWs_eq, started]
    simp only [plain.1.2, if_false]
    exact whole
  | emptyObject | object => cases array
  | lastItem | item | member | lastMember | members => cases phrase

end

end MessageRelay.Send
