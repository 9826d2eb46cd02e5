import Mathlib

/-! Bytes as text in base64: the standard alphabet, padded, and read back only where it is what a writer writes (the
padding is whole, and the bits it leaves are zero). -/

namespace MessageRelay.Library.Base64

abbrev pad : UInt8 := 0x3d

/-- The character of six bits. -/
def letter (n : Nat) : UInt8 :=
  if n < 26 then UInt8.ofNat (0x41 + n)
  else if n < 52 then UInt8.ofNat (0x61 + (n - 26))
  else if n < 62 then UInt8.ofNat (0x30 + (n - 52))
  else if n = 62 then 0x2b
  else 0x2f

/-- The six bits of a character. -/
def sextet (c : UInt8) : Option Nat :=
  if 0x41 ≤ c ∧ c ≤ 0x5a then some (c.toNat - 0x41)
  else if 0x61 ≤ c ∧ c ≤ 0x7a then some (c.toNat - 0x61 + 26)
  else if 0x30 ≤ c ∧ c ≤ 0x39 then some (c.toNat - 0x30 + 52)
  else if c = 0x2b then some 62
  else if c = 0x2f then some 63
  else none

def encode : List UInt8 → List UInt8
  | [] => []
  | [x] => [letter (x.toNat / 4), letter (x.toNat % 4 * 16), pad, pad]
  | [x, y] => [letter (x.toNat / 4), letter (x.toNat % 4 * 16 + y.toNat / 16), letter (y.toNat % 16 * 4), pad]
  | x :: y :: z :: rest =>
    letter (x.toNat / 4) :: letter (x.toNat % 4 * 16 + y.toNat / 16) :: letter (y.toNat % 16 * 4 + z.toNat / 64) ::
      letter (z.toNat % 64) :: encode rest

/-- A group that holds one byte. -/
def oneByte (a b : UInt8) : Option (List UInt8) := do
  let a ← sextet a
  let b ← sextet b
  if b % 16 = 0 then some [UInt8.ofNat (a * 4 + b / 16)] else none

def twoBytes (a b c : UInt8) : Option (List UInt8) := do
  let a ← sextet a
  let b ← sextet b
  let c ← sextet c
  if c % 4 = 0 then some [UInt8.ofNat (a * 4 + b / 16), UInt8.ofNat (b % 16 * 16 + c / 4)] else none

def threeBytes (a b c d : UInt8) : Option (List UInt8) := do
  let a ← sextet a
  let b ← sextet b
  let c ← sextet c
  let d ← sextet d
  some [UInt8.ofNat (a * 4 + b / 16), UInt8.ofNat (b % 16 * 16 + c / 4), UInt8.ofNat (c % 4 * 64 + d)]

/-- Padding stands in the last group only. -/
def decode : List UInt8 → Option (List UInt8)
  | [] => some []
  | [a, b, c, d] =>
    if d = pad then if c = pad then oneByte a b else twoBytes a b c
    else threeBytes a b c d
  | a :: b :: c :: d :: rest => (threeBytes a b c d).bind (fun three => (decode rest).map (three ++ ·))
  | _ => none

theorem sextet_letter {n : Nat} (small : n < 64) : sextet (letter n) = some n := by
  have all : ∀ n < 64, sextet (letter n) = some n := by decide
  exact all n small

theorem letter_ne_pad {n : Nat} (small : n < 64) : letter n ≠ pad := by
  have all : ∀ n < 64, letter n ≠ pad := by decide
  exact all n small

theorem sextet_eq_some {c : UInt8} {n : Nat} (read : sextet c = some n) : n < 64 ∧ c = letter n := by
  have all : ∀ k < 256, ∀ n, sextet (UInt8.ofNat k) = some n → n < 64 ∧ UInt8.ofNat k = letter n := by decide +kernel
  have here := all c.toNat c.toNat_lt n
  rw [UInt8.ofNat_toNat] at here
  exact here read

theorem toNat_byte {n : Nat} (small : n < 256) : (UInt8.ofNat n).toNat = n := UInt8.toNat_ofNat_of_lt' small

theorem ofNat_eq {n : Nat} {x : UInt8} (same : n = x.toNat) : UInt8.ofNat n = x := by
  rw [same, UInt8.ofNat_toNat]

theorem oneByte_letters (x : UInt8) : oneByte (letter (x.toNat / 4)) (letter (x.toNat % 4 * 16)) = some [x] := by
  have bound := x.toNat_lt
  have value : x.toNat / 4 * 4 + x.toNat % 4 * 16 / 16 = x.toNat := by omega
  have zero : x.toNat % 4 * 16 % 16 = 0 := by omega
  simp only [oneByte, sextet_letter (show x.toNat / 4 < 64 by omega),
    sextet_letter (show x.toNat % 4 * 16 < 64 by omega), Option.bind_eq_bind, Option.bind_some, ofNat_eq value, zero,
    if_true]

theorem twoBytes_letters (x y : UInt8) : twoBytes (letter (x.toNat / 4)) (letter (x.toNat % 4 * 16 + y.toNat / 16))
    (letter (y.toNat % 16 * 4)) = some [x, y] := by
  have bound := x.toNat_lt
  have bound' := y.toNat_lt
  have first : x.toNat / 4 * 4 + (x.toNat % 4 * 16 + y.toNat / 16) / 16 = x.toNat := by omega
  have second : (x.toNat % 4 * 16 + y.toNat / 16) % 16 * 16 + y.toNat % 16 * 4 / 4 = y.toNat := by omega
  have zero : y.toNat % 16 * 4 % 4 = 0 := by omega
  simp only [twoBytes, sextet_letter (show x.toNat / 4 < 64 by omega),
    sextet_letter (show x.toNat % 4 * 16 + y.toNat / 16 < 64 by omega),
    sextet_letter (show y.toNat % 16 * 4 < 64 by omega), Option.bind_eq_bind, Option.bind_some, ofNat_eq first,
    ofNat_eq second, zero, if_true]

theorem threeBytes_letters (x y z : UInt8) : threeBytes (letter (x.toNat / 4))
    (letter (x.toNat % 4 * 16 + y.toNat / 16)) (letter (y.toNat % 16 * 4 + z.toNat / 64)) (letter (z.toNat % 64)) =
      some [x, y, z] := by
  have bound := x.toNat_lt
  have bound' := y.toNat_lt
  have bound'' := z.toNat_lt
  have first : x.toNat / 4 * 4 + (x.toNat % 4 * 16 + y.toNat / 16) / 16 = x.toNat := by omega
  have second : (x.toNat % 4 * 16 + y.toNat / 16) % 16 * 16 + (y.toNat % 16 * 4 + z.toNat / 64) / 4 = y.toNat := by omega
  have third : (y.toNat % 16 * 4 + z.toNat / 64) % 4 * 64 + z.toNat % 64 = z.toNat := by omega
  simp only [threeBytes, sextet_letter (show x.toNat / 4 < 64 by omega),
    sextet_letter (show x.toNat % 4 * 16 + y.toNat / 16 < 64 by omega),
    sextet_letter (show y.toNat % 16 * 4 + z.toNat / 64 < 64 by omega),
    sextet_letter (show z.toNat % 64 < 64 by omega), Option.bind_eq_bind, Option.bind_some, ofNat_eq first,
    ofNat_eq second, ofNat_eq third]

theorem decode_encode (bytes : List UInt8) : decode (encode bytes) = some bytes := by
  induction bytes using encode.induct with
  | case1 => rfl
  | case2 x =>
    rw [encode, decode, if_pos rfl, if_pos rfl]
    exact oneByte_letters x
  | case3 x y =>
    have bound := y.toNat_lt
    rw [encode, decode, if_pos rfl, if_neg (letter_ne_pad (by omega))]
    exact twoBytes_letters x y
  | case4 x y z rest ih =>
    have bound := z.toNat_lt
    cases more : encode rest with
    | nil =>
      have none' : rest = [] := by
        rw [more] at ih
        exact (Option.some.inj ih).symm
      rw [none', encode, encode, decode, if_neg (letter_ne_pad (by omega))]
      exact threeBytes_letters x y z
    | cons c later =>
      rw [encode, more, decode, threeBytes_letters, Option.bind_some, ← more, ih]
      · rfl
      · exact List.cons_ne_nil c later

theorem oneByte_sound {a b : UInt8} {bytes : List UInt8} (read : oneByte a b = some bytes) :
    [a, b, pad, pad] = encode bytes := by
  simp only [oneByte, Option.bind_eq_bind, Option.bind_eq_some_iff] at read
  obtain ⟨a', first, b', second, value⟩ := read
  obtain ⟨boundA, rfl⟩ := sextet_eq_some first
  obtain ⟨boundB, rfl⟩ := sextet_eq_some second
  split at value
  · next zero =>
    cases value
    have whole : (UInt8.ofNat (a' * 4 + b' / 16)).toNat = a' * 4 + b' / 16 := toNat_byte (by omega)
    rw [encode, whole, show (a' * 4 + b' / 16) / 4 = a' by omega, show (a' * 4 + b' / 16) % 4 * 16 = b' by omega]
  · cases value

theorem twoBytes_sound {a b c : UInt8} {bytes : List UInt8} (read : twoBytes a b c = some bytes) :
    [a, b, c, pad] = encode bytes := by
  simp only [twoBytes, Option.bind_eq_bind, Option.bind_eq_some_iff] at read
  obtain ⟨a', first, b', second, c', third, value⟩ := read
  obtain ⟨boundA, rfl⟩ := sextet_eq_some first
  obtain ⟨boundB, rfl⟩ := sextet_eq_some second
  obtain ⟨boundC, rfl⟩ := sextet_eq_some third
  split at value
  · next zero =>
    cases value
    have high : (UInt8.ofNat (a' * 4 + b' / 16)).toNat = a' * 4 + b' / 16 := toNat_byte (by omega)
    have low : (UInt8.ofNat (b' % 16 * 16 + c' / 4)).toNat = b' % 16 * 16 + c' / 4 :=
      toNat_byte (by omega)
    rw [encode, high, low, show (a' * 4 + b' / 16) / 4 = a' by omega,
      show (a' * 4 + b' / 16) % 4 * 16 + (b' % 16 * 16 + c' / 4) / 16 = b' by omega,
      show (b' % 16 * 16 + c' / 4) % 16 * 4 = c' by omega]
  · cases value

/-- A full group is the text of its three bytes, with what is written after them. -/
theorem threeBytes_sound {a b c d : UInt8} {bytes : List UInt8} (read : threeBytes a b c d = some bytes) :
    bytes.length = 3 ∧ ∀ rest, a :: b :: c :: d :: encode rest = encode (bytes ++ rest) := by
  simp only [threeBytes, Option.bind_eq_bind, Option.bind_eq_some_iff, Option.some.injEq] at read
  obtain ⟨a', first, b', second, c', third, d', fourth, rfl⟩ := read
  obtain ⟨boundA, rfl⟩ := sextet_eq_some first
  obtain ⟨boundB, rfl⟩ := sextet_eq_some second
  obtain ⟨boundC, rfl⟩ := sextet_eq_some third
  obtain ⟨boundD, rfl⟩ := sextet_eq_some fourth
  have x : (UInt8.ofNat (a' * 4 + b' / 16)).toNat = a' * 4 + b' / 16 := toNat_byte (by omega)
  have y : (UInt8.ofNat (b' % 16 * 16 + c' / 4)).toNat = b' % 16 * 16 + c' / 4 := toNat_byte (by omega)
  have z : (UInt8.ofNat (c' % 4 * 64 + d')).toNat = c' % 4 * 64 + d' := toNat_byte (by omega)
  refine ⟨rfl, fun rest => ?_⟩
  rw [List.cons_append, List.cons_append, List.cons_append, List.nil_append, encode, x, y, z,
    show (a' * 4 + b' / 16) / 4 = a' by omega,
    show (a' * 4 + b' / 16) % 4 * 16 + (b' % 16 * 16 + c' / 4) / 16 = b' by omega,
    show (b' % 16 * 16 + c' / 4) % 16 * 4 + (c' % 4 * 64 + d') / 64 = c' by omega,
    show (c' % 4 * 64 + d') % 64 = d' by omega]

theorem decode_sound {text bytes : List UInt8} (read : decode text = some bytes) : text = encode bytes := by
  induction text using decode.induct generalizing bytes with
  | case1 =>
    cases read
    rfl
  | case2 a b =>
    rw [decode, if_pos rfl, if_pos rfl] at read
    exact oneByte_sound read
  | case3 a b c other =>
    rw [decode, if_pos rfl, if_neg other] at read
    exact twoBytes_sound read
  | case4 a b c d other =>
    rw [decode, if_neg other] at read
    have whole := (threeBytes_sound read).2 []
    rwa [encode, List.append_nil] at whole
  | case5 a b c d rest some' ih =>
    rw [decode, Option.bind_eq_some_iff] at read
    · obtain ⟨three, first, later⟩ := read
      obtain ⟨more, decoded, rfl⟩ := Option.map_eq_some_iff.mp later
      rw [ih decoded]
      exact (threeBytes_sound first).2 more
    · exact some'
  | case6 text => simp_all [decode]

/-- What reads back is what a writer writes, and nothing else. -/
theorem decode_eq_some_iff {text bytes : List UInt8} : decode text = some bytes ↔ text = encode bytes := by
  constructor
  · exact decode_sound
  · rintro rfl
    exact decode_encode bytes

theorem length_encode (bytes : List UInt8) : (encode bytes).length = (bytes.length + 2) / 3 * 4 := by
  induction bytes using encode.induct with
  | case1 => rfl
  | case2 | case3 => simp [encode]
  | case4 x y z rest ih =>
    simp only [encode, List.length_cons, ih]
    omega

/-- Whole groups are written apart from what follows them. -/
theorem encode_append (front : List UInt8) (whole : front.length % 3 = 0) (rest : List UInt8) :
    encode (front ++ rest) = encode front ++ encode rest := by
  induction front using encode.induct with
  | case1 => rfl
  | case2 | case3 => simp at whole
  | case4 x y z more ih =>
    simp only [List.length_cons] at whole
    simp only [List.cons_append, encode, ih (by omega)]

theorem drop_encode (bytes : List UInt8) (k : Nat) : (encode bytes).drop (4 * k) = encode (bytes.drop (3 * k)) := by
  by_cases inside : 3 * k ≤ bytes.length
  · have cut : (bytes.take (3 * k)).length = 3 * k := List.length_take_of_le inside
    have parted := encode_append (bytes.take (3 * k)) (by omega) (bytes.drop (3 * k))
    have written : (encode (bytes.take (3 * k))).length = 4 * k := by
      rw [length_encode]
      omega
    rw [List.take_append_drop] at parted
    rw [parted, List.drop_left' written]
  · have past : (encode bytes).length ≤ 4 * k := by
      rw [length_encode]
      omega
    rw [List.drop_eq_nil_of_le past, List.drop_eq_nil_of_le (Nat.le_of_not_le inside), encode]

theorem take_encode (bytes : List UInt8) (k : Nat) : (encode bytes).take (4 * k) = encode (bytes.take (3 * k)) := by
  by_cases inside : 3 * k ≤ bytes.length
  · have cut : (bytes.take (3 * k)).length = 3 * k := List.length_take_of_le inside
    have parted := encode_append (bytes.take (3 * k)) (by omega) (bytes.drop (3 * k))
    have written : (encode (bytes.take (3 * k))).length = 4 * k := by
      rw [length_encode]
      omega
    rw [List.take_append_drop] at parted
    rw [parted, List.take_left' written]
  · have past : (encode bytes).length ≤ 4 * k := by
      rw [length_encode]
      omega
    rw [List.take_of_length_le past, List.take_of_length_le (Nat.le_of_not_le inside)]

/-- Padding stands exactly where the bytes are not whole groups. -/
theorem pad_mem_encode (bytes : List UInt8) : pad ∈ encode bytes ↔ bytes.length % 3 ≠ 0 := by
  induction bytes using encode.induct with
  | case1 => simp [encode]
  | case2 | case3 => simp [encode]
  | case4 x y z rest ih =>
    have bound := x.toNat_lt
    have bound' := y.toNat_lt
    have bound'' := z.toNat_lt
    have first : pad ≠ letter (x.toNat / 4) := (letter_ne_pad (by omega)).symm
    have second : pad ≠ letter (x.toNat % 4 * 16 + y.toNat / 16) := (letter_ne_pad (by omega)).symm
    have third : pad ≠ letter (y.toNat % 16 * 4 + z.toNat / 64) := (letter_ne_pad (by omega)).symm
    have fourth : pad ≠ letter (z.toNat % 64) := (letter_ne_pad (by omega)).symm
    simp only [encode, List.mem_cons, first, second, third, fourth, false_or, ih, List.length_cons]
    omega

theorem mem_encode {bytes : List UInt8} {c : UInt8} (written : c ∈ encode bytes) :
    (∃ n, n < 64 ∧ c = letter n) ∨ c = pad := by
  induction bytes using encode.induct with
  | case1 => cases written
  | case2 x =>
    have bound := x.toNat_lt
    simp only [encode, List.mem_cons, List.not_mem_nil, or_false] at written
    rcases written with rfl | rfl | rfl | rfl
    · exact .inl ⟨_, by omega, rfl⟩
    · exact .inl ⟨_, by omega, rfl⟩
    · exact .inr rfl
    · exact .inr rfl
  | case3 x y =>
    have bound := x.toNat_lt
    have bound' := y.toNat_lt
    simp only [encode, List.mem_cons, List.not_mem_nil, or_false] at written
    rcases written with rfl | rfl | rfl | rfl
    · exact .inl ⟨_, by omega, rfl⟩
    · exact .inl ⟨_, by omega, rfl⟩
    · exact .inl ⟨_, by omega, rfl⟩
    · exact .inr rfl
  | case4 x y z rest ih =>
    have bound := x.toNat_lt
    have bound' := y.toNat_lt
    have bound'' := z.toNat_lt
    simp only [encode, List.mem_cons] at written
    rcases written with rfl | rfl | rfl | rfl | later
    · exact .inl ⟨_, by omega, rfl⟩
    · exact .inl ⟨_, by omega, rfl⟩
    · exact .inl ⟨_, by omega, rfl⟩
    · exact .inl ⟨_, by omega, rfl⟩
    · exact ih later

/-- The padding at the end tells how many bytes the last group is short of. -/
theorem length_of_encode (bytes : List UInt8) :
    (encode bytes).length / 4 * 3 - ((encode bytes).reverse.take 2).count pad = bytes.length := by
  induction bytes using encode.induct with
  | case1 => rfl
  | case2 x => simp [encode]
  | case3 x y =>
    have bound := y.toNat_lt
    have other : letter (y.toNat % 16 * 4) ≠ pad := letter_ne_pad (by omega)
    simp [encode, other]
  | case4 x y z rest ih =>
    have bound := y.toNat_lt
    have bound' := z.toNat_lt
    have third : letter (y.toNat % 16 * 4 + z.toNat / 64) ≠ pad := letter_ne_pad (by omega)
    have fourth : letter (z.toNat % 64) ≠ pad := letter_ne_pad (by omega)
    by_cases none' : rest = []
    · subst none'
      simp [encode, third, fourth]
    · have long : 4 ≤ (encode rest).length := by
        have some' := List.length_pos_iff.mpr none'
        rw [length_encode]
        omega
      have last : ((encode (x :: y :: z :: rest)).reverse.take 2) = (encode rest).reverse.take 2 := by
        simp only [encode, List.reverse_cons, List.append_assoc]
        rw [List.take_append_of_le_length (by rw [List.length_reverse]; omega)]
      have few : ((encode rest).reverse.take 2).count pad ≤ 2 := List.count_le_length.trans (List.length_take_le ..)
      rw [last]
      simp only [encode, List.length_cons]
      omega

end MessageRelay.Library.Base64
