import MessageRelay.Library.Base64
import MessageRelay.Send.ReadBody

/-! The inline payment transaction, in the shapes the server receives it: bytes one by one, hex, and base64 under
`beef`. Nothing is decoded but the part asked for, and a part is what the whole decodes to there. -/

namespace MessageRelay.Door
open MessageRelay.Lane MessageRelay.Library MessageRelay.Library.Json MessageRelay.Session MessageRelay.Payments
open MessageRelay.Send

def chunkBytes : Nat := 64 * 1024

/-- A carrier's text is the bytes of the string it came in. -/
inductive Carrier where
  | array (items : List Value)
  | hex (text : Text)
  | base64 (text : Text)

def isHexDigit (b : UInt8) : Bool := (hexValue b).isSome

/-- `hex::decode`. -/
def unhex : Text → Option Bytes
  | [] => some []
  | [_] => none
  | a :: b :: rest => do
    let high ← hexValue a
    let low ← hexValue b
    let more ← unhex rest
    return UInt8.ofNat (high * 16 + low) :: more

def subtext (text : Text) (start stop : Nat) : Text := (text.take stop).drop start

/-- `slice::chunks`. -/
def blocks {α : Type} (size : Nat) (xs : List α) : List (List α) :=
  match xs with
  | [] => []
  | x :: rest => (x :: rest.take (size - 1)) :: blocks size (rest.drop (size - 1))
termination_by xs.length
decreasing_by simp only [List.length_drop, List.length_cons]; omega

/-- Each block decodes, and none but the last is padded. -/
def decodesInBlocks (text : Text) : Bool :=
  let groups := blocks (chunkBytes / 3 * 4) text
  groups.zipIdx.all (fun (group, i) =>
    (i = groups.length - 1 || !group.contains Base64.pad) && (Base64.decode group).isSome)

namespace Carrier

def ofBase64 (b : String) : Option Carrier :=
  let text := utf8Bytes b
  if text.length % 4 ≠ 0 then none
  else if decodesInBlocks text then some (.base64 text)
  else none

def of : Value → Option Carrier
  | .array items => if items.all (fun v => (asU64 v).any (· ≤ 255)) then some (.array items) else none
  | .string h =>
    let text := utf8Bytes h
    if text.length % 2 = 0 && text.all isHexDigit then some (.hex text) else none
  | .object fields => ((Value.object fields).get "beef").bind (fun b => b.asStr.bind ofBase64)
  | _ => none

def len : Carrier → Nat
  | .array items => items.length
  | .hex text => text.length / 2
  | .base64 text => text.length / 4 * 3 - (text.reverse.take 2).count Base64.pad

/-- At most so many decoded bytes, from a decoded offset on. -/
def bytes (c : Carrier) (start max : Nat) : Bytes :=
  let start := min start c.len
  let count := min max (c.len - start)
  match c with
  | .array items => ((items.drop start).take count).map (fun v => UInt8.ofNat ((asU64 v).getD 0))
  | .hex text => (unhex (subtext text (2 * start) (2 * (start + count)))).getD []
  | .base64 text =>
    let skip := start % 3
    let first := start / 3 * 4
    let groups := (skip + count + 2) / 3 * 4
    let stop := min (first + groups) text.length
    let out := (Base64.decode (subtext text first stop)).getD []
    (out.drop (min skip out.length)).take count

end Carrier

structure CarrierChunks where
  carrier : Carrier
  place : Nat

def Carrier.chunks (c : Carrier) (start : Nat) : CarrierChunks := ⟨c, start⟩

def CarrierChunks.next (chunks : CarrierChunks) : Option Bytes × CarrierChunks :=
  let chunk := chunks.carrier.bytes chunks.place chunkBytes
  (if chunk ≠ [] then some chunk else none, { chunks with place := chunks.place + chunk.length })

/-- The chunks up to the end, one after the other, where they end within so many calls. -/
def CarrierChunks.drained : Nat → CarrierChunks → Option Bytes
  | 0, _ => none
  | calls + 1, chunks =>
    match chunks.next with
    | (none, _) => some []
    | (some chunk, later) => (later.drained calls).map (chunk ++ ·)

/-- What the whole `tx` decodes to. -/
def decoding : Value → Option Bytes
  | .array items => items.mapM byteOf
  | .string h => unhex (utf8Bytes h)
  | .object fields => ((Value.object fields).get "beef").bind (fun b => b.asStr.bind (fun b => Base64.decode (utf8Bytes b)))
  | _ => none

theorem unhex_isSome (text : Text) : (unhex text).isSome = (decide (text.length % 2 = 0) && text.all isHexDigit) := by
  induction text using unhex.induct with
  | case1 => rfl
  | case2 => simp [unhex]
  | case3 a b rest ih =>
    have even : (rest.length + 1 + 1) % 2 = rest.length % 2 := by omega
    rw [unhex]
    cases first : hexValue a <;> cases second : hexValue b <;>
      simp [isHexDigit, first, second, even, ← ih]
    cases unhex rest <;> rfl

theorem unhex_length {text : Text} {D : Bytes} (read : unhex text = some D) : text.length = 2 * D.length := by
  induction text using unhex.induct generalizing D with
  | case1 =>
    cases read
    rfl
  | case2 => cases read
  | case3 a b rest ih =>
    simp only [unhex, Option.bind_eq_bind, Option.bind_eq_some_iff, Option.pure_def, Option.some.injEq] at read
    obtain ⟨-, -, -, -, more, decoded, rfl⟩ := read
    simp only [List.length_cons, ih decoded]
    omega

/-- Two digits a byte, from whichever byte on. -/
theorem unhex_subtext {text : Text} {D : Bytes} (read : unhex text = some D) (start stop : Nat) :
    unhex (subtext text (2 * start) (2 * stop)) = some ((D.take stop).drop start) := by
  induction text using unhex.induct generalizing D start stop with
  | case1 =>
    cases read
    simp [subtext, unhex]
  | case2 => cases read
  | case3 a b rest ih =>
    have whole := read
    simp only [unhex, Option.bind_eq_bind, Option.bind_eq_some_iff, Option.pure_def, Option.some.injEq] at read
    obtain ⟨high, first, low, second, more, decoded, rfl⟩ := read
    cases stop with
    | zero => simp [subtext, unhex]
    | succ stop =>
      cases start with
      | zero =>
        have tail := ih decoded 0 stop
        simp only [subtext, Nat.mul_zero, List.drop_zero] at tail
        simp [subtext, Nat.mul_succ, unhex, first, second, tail]
      | succ start =>
        have tail := ih decoded start stop
        simpa [subtext, Nat.mul_succ] using tail

theorem blocks_cons {α : Type} {size : Nat} (positive : 0 < size) {xs : List α} (some' : xs ≠ []) :
    blocks size xs = xs.take size :: blocks size (xs.drop size) := by
  obtain ⟨x, rest, rfl⟩ := List.exists_cons_of_ne_nil some'
  obtain ⟨k, rfl⟩ : ∃ k, size = k + 1 := ⟨size - 1, by omega⟩
  rw [blocks]
  rfl

theorem blocks_nil {α : Type} (size : Nat) : blocks size ([] : List α) = [] := by
  rw [blocks]

theorem blocks_ne_nil {α : Type} (size : Nat) {xs : List α} (some' : xs ≠ []) : blocks size xs ≠ [] := by
  obtain ⟨x, rest, rfl⟩ := List.exists_cons_of_ne_nil some'
  rw [blocks]
  exact List.cons_ne_nil _ _

/-- All but the last, told by their places. -/
theorem all_zipIdx_iff {α : Type} (p q : α → Bool) (xs : List α) :
    (xs.zipIdx.all (fun (x, i) => (decide (i = xs.length - 1) || p x) && q x)) = true ↔
      (∀ x ∈ xs, q x = true) ∧ ∀ x ∈ xs.dropLast, p x = true := by
  simp only [List.all_eq_true, Bool.and_eq_true, Bool.or_eq_true, decide_eq_true_eq, Prod.forall,
    List.mem_zipIdx_iff_getElem?]
  simp only [List.mem_iff_getElem?, List.getElem?_dropLast]
  constructor
  · intro all
    refine ⟨fun x ⟨i, at'⟩ => (all x i at').2, fun x ⟨i, at'⟩ => ?_⟩
    split at at'
    · next inside => exact (all x i at').1.resolve_left inside.ne
    · cases at'
  · rintro ⟨every, front⟩ x i at'
    refine ⟨?_, every x ⟨i, at'⟩⟩
    by_cases last : i = xs.length - 1
    · exact .inl last
    · have bound := (List.getElem?_eq_some_iff.mp at').1
      exact .inr (front x ⟨i, by rw [if_pos (by omega)]; exact at'⟩)

/-- In blocks of whole groups it decodes exactly where the whole does. -/
theorem decodes_blocks_iff {k : Nat} (positive : 0 < k) (text : Text) :
    ((∀ group ∈ blocks (4 * k) text, (Base64.decode group).isSome = true) ∧
      ∀ group ∈ (blocks (4 * k) text).dropLast, Base64.pad ∉ group) ↔ ∃ D, text = Base64.encode D := by
  induction h : text.length using Nat.strong_induction_on generalizing text with
  | _ n ih =>
  by_cases none' : text = []
  · subst none'
    rw [blocks_nil]
    exact iff_of_true ⟨by simp, by simp⟩ ⟨[], rfl⟩
  · rw [blocks_cons (by omega) none']
    by_cases short : text.drop (4 * k) = []
    · have all : text.take (4 * k) = text := List.take_of_length_le (List.drop_eq_nil_iff.mp short)
      rw [short, blocks_nil, all]
      simp [Option.isSome_iff_exists, Base64.decode_eq_some_iff]
    · have shorter : (text.drop (4 * k)).length < n := by
        have some' := List.length_pos_iff.mpr none'
        rw [List.length_drop]
        omega
      have later := ih _ shorter (text.drop (4 * k)) rfl
      rw [List.dropLast_cons_of_ne_nil (blocks_ne_nil _ short)]
      simp only [List.forall_mem_cons]
      constructor
      · rintro ⟨⟨first, rest⟩, clean, clean'⟩
        obtain ⟨D, read⟩ := Option.isSome_iff_exists.mp first
        obtain ⟨D', rest'⟩ := later.mp ⟨rest, clean'⟩
        rw [Base64.decode_eq_some_iff] at read
        have whole : D.length % 3 = 0 := by
          rw [read, Base64.pad_mem_encode, not_not] at clean
          exact clean
        refine ⟨D ++ D', ?_⟩
        rw [Base64.encode_append D whole, ← read, ← rest', List.take_append_drop]
      · rintro ⟨D, rfl⟩
        have inside : 3 * k < D.length := by
          rw [Base64.drop_encode] at short
          by_contra outside
          rw [List.drop_eq_nil_of_le (Nat.le_of_not_lt outside)] at short
          exact short rfl
        obtain ⟨rest, clean⟩ := later.mpr ⟨D.drop (3 * k), Base64.drop_encode D k⟩
        rw [Base64.take_encode]
        refine ⟨⟨by rw [Base64.decode_encode]; rfl, rest⟩, ?_, clean⟩
        rw [Base64.pad_mem_encode, not_not, List.length_take_of_le inside.le]
        omega

theorem decodesInBlocks_iff (text : Text) : decodesInBlocks text = true ↔ ∃ D, text = Base64.encode D := by
  have size : chunkBytes / 3 * 4 = 4 * 21845 := by decide
  rw [decodesInBlocks, size]
  refine (all_zipIdx_iff (fun group => !group.contains Base64.pad) (fun group => (Base64.decode group).isSome) _).trans ?_
  rw [← decodes_blocks_iff (show 0 < 21845 by decide) text]
  simp

theorem byteOf_isSome (v : Value) : (byteOf v).isSome = (asU64 v).any (· ≤ 255) := by
  rw [byteOf]
  cases asU64 v with
  | none => rfl
  | some n => by_cases small : n ≤ 255 <;> simp [small]

theorem byteOf_eq {v : Value} {b : UInt8} (read : byteOf v = some b) : UInt8.ofNat ((asU64 v).getD 0) = b := by
  rw [byteOf, Option.bind_eq_some_iff] at read
  obtain ⟨n, number, held⟩ := read
  split at held
  · cases held
    rw [number, Option.getD_some]
  · cases held

theorem mapM_byteOf_isSome (items : List Value) :
    (items.mapM byteOf).isSome = items.all (fun v => (asU64 v).any (· ≤ 255)) := by
  induction items with
  | nil => rfl
  | cons v rest ih =>
    rw [List.mapM_cons, List.all_cons, ← ih, ← byteOf_isSome]
    cases byteOf v <;> cases rest.mapM byteOf <;> rfl

theorem mapM_byteOf_eq {items : List Value} {D : Bytes} (read : items.mapM byteOf = some D) :
    items.map (fun v => UInt8.ofNat ((asU64 v).getD 0)) = D := by
  induction items generalizing D with
  | nil =>
    cases read
    rfl
  | cons v rest ih =>
    simp only [List.mapM_cons, Option.bind_eq_bind, Option.bind_eq_some_iff, Option.pure_def, Option.some.injEq] at read
    obtain ⟨b, first, more, later, rfl⟩ := read
    rw [List.map_cons, byteOf_eq first, ih later]

namespace Carrier

/-- The bytes a carrier is of. -/
def Holds (D : Bytes) : Carrier → Prop
  | .array items => items.mapM byteOf = some D
  | .hex text => unhex text = some D
  | .base64 text => text = Base64.encode D

theorem of_eq_some {tx : Value} {c : Carrier} (found : of tx = some c) : ∃ D, decoding tx = some D ∧ c.Holds D := by
  cases tx with
  | array items =>
    rw [of] at found
    split at found
    · next bytes =>
      cases found
      rw [← mapM_byteOf_isSome] at bytes
      obtain ⟨D, read⟩ := Option.isSome_iff_exists.mp bytes
      exact ⟨D, read, read⟩
    · cases found
  | string h =>
    rw [of] at found
    split at found
    · next digits =>
      cases found
      rw [← unhex_isSome] at digits
      obtain ⟨D, read⟩ := Option.isSome_iff_exists.mp digits
      exact ⟨D, read, read⟩
    · cases found
  | object fields =>
    simp only [of, Option.bind_eq_some_iff] at found
    obtain ⟨beef, field, b, isText, held⟩ := found
    simp only [ofBase64] at held
    split at held
    · cases held
    · split at held
      · next grouped =>
        cases held
        obtain ⟨D, written⟩ := (decodesInBlocks_iff _).mp grouped
        have read : Base64.decode (utf8Bytes b) = some D := Base64.decode_eq_some_iff.mpr written
        exact ⟨D, by simp [decoding, field, isText, read], written⟩
      · cases held
  | null | bool | number => cases found

theorem of_isSome (tx : Value) : (of tx).isSome = (decoding tx).isSome := by
  cases tx with
  | array items =>
    rw [decoding, mapM_byteOf_isSome, of]
    split <;> simp_all
  | string h =>
    rw [decoding, unhex_isSome, of]
    split <;> simp_all
  | object fields =>
    rw [of, decoding]
    cases (Value.object fields).get "beef" with
    | none => rfl
    | some beef =>
      cases beef with
      | string b =>
        have four (D : Bytes) : (Base64.encode D).length % 4 = 0 := by
          rw [Base64.length_encode]
          exact Nat.mul_mod_left ..
        have whole : (Base64.decode (utf8Bytes b)).isSome = true ↔ ∃ D, utf8Bytes b = Base64.encode D := by
          simp [Option.isSome_iff_exists, Base64.decode_eq_some_iff]
        change (ofBase64 b).isSome = (Base64.decode (utf8Bytes b)).isSome
        rw [Bool.eq_iff_iff, whole, ← decodesInBlocks_iff, ofBase64]
        by_cases grouped : decodesInBlocks (utf8Bytes b) = true
        · obtain ⟨D, written⟩ := (decodesInBlocks_iff _).mp grouped
          simp [grouped, written ▸ four D]
        · simp only [grouped, if_false, iff_false, Bool.not_eq_true, Bool.false_eq_true]
          split <;> rfl
      | null | bool | number | array | object => rfl
  | null | bool | number => rfl

theorem len_eq {c : Carrier} {D : Bytes} (holds : c.Holds D) : c.len = D.length := by
  cases c with
  | array items =>
    rw [← mapM_byteOf_eq holds, List.length_map]
    rfl
  | hex text => rw [len, unhex_length holds, Nat.mul_div_cancel_left _ (by decide)]
  | base64 text =>
    rw [len, show text = Base64.encode D from holds]
    exact Base64.length_of_encode D

/-- A slice is that of the whole. -/
theorem bytes_eq {c : Carrier} {D : Bytes} (holds : c.Holds D) (start max : Nat) :
    c.bytes start max = (D.take (min (start + max) D.length)).drop start := by
  have inside : min start D.length ≤ D.length := Nat.min_le_right ..
  have part : (D.drop (min start D.length)).take (min max (D.length - min start D.length)) =
      (D.take (min (start + max) D.length)).drop start := by
    rw [List.drop_take]
    by_cases within : start ≤ D.length
    · rw [Nat.min_eq_left within]
      congr 1
      omega
    · rw [Nat.min_eq_right (Nat.le_of_not_le within), List.drop_length, List.drop_eq_nil_of_le (Nat.le_of_not_le within)]
      simp
  rw [← part]
  simp only [bytes.eq_def, len_eq holds]
  generalize min start D.length = place at inside
  have room : place + min max (D.length - place) ≤ D.length := by omega
  generalize min max (D.length - place) = count at room
  cases c with
  | array items =>
    simp only
    rw [← mapM_byteOf_eq holds, List.map_take, List.map_drop]
  | hex text =>
    simp only
    rw [unhex_subtext holds, Option.getD_some, List.drop_take, Nat.add_sub_cancel_left]
  | base64 text =>
    have written : text = Base64.encode D := holds
    have aligned : place / 3 * 4 = 4 * (place / 3) := Nat.mul_comm ..
    have ended : place / 3 * 4 + (place % 3 + count + 2) / 3 * 4 = 4 * (place / 3 + (place % 3 + count + 2) / 3) := by omega
    have cut : (subtext text (place / 3 * 4) (min (place / 3 * 4 + (place % 3 + count + 2) / 3 * 4) text.length)) =
        Base64.encode ((D.take (3 * (place / 3 + (place % 3 + count + 2) / 3))).drop (3 * (place / 3))) := by
      rw [subtext, ← List.take_eq_take_min, ended, aligned, written, Base64.take_encode, Base64.drop_encode]
    simp only
    rw [cut, Base64.decode_encode, Option.getD_some, ← List.drop_eq_drop_min]
    rw [List.drop_drop, show 3 * (place / 3) + place % 3 = place from Nat.div_add_mod place 3, List.drop_take,
      List.take_take,
      Nat.min_eq_left (by omega)]

end Carrier

/-- The chunks from a place on are what is left there, one after the other. -/
theorem CarrierChunks.drained_eq {c : Carrier} {D : Bytes} (holds : c.Holds D) (calls : Nat) {place : Nat}
    (enough : D.length - place < calls) : CarrierChunks.drained calls ⟨c, place⟩ = some (D.drop place) := by
  induction calls generalizing place with
  | zero => cases enough
  | succ calls ih =>
    have chunk := Carrier.bytes_eq holds place chunkBytes
    rw [List.drop_take] at chunk
    by_cases ended : D.length ≤ place
    · have none' : (D.drop place) = [] := List.drop_eq_nil_of_le ended
      rw [none', List.take_nil] at chunk
      simp [drained, next, chunk, none']
    · have size : (c.bytes place chunkBytes).length = min (place + chunkBytes) D.length - place := by
        rw [chunk, List.length_take, List.length_drop]
        omega
      have some' : c.bytes place chunkBytes ≠ [] := by
        rw [← List.length_pos_iff, size, chunkBytes]
        omega
      have fewer : D.length - (place + (c.bytes place chunkBytes).length) < calls := by
        rw [size, chunkBytes]
        omega
      have tail := ih fewer
      simp only [drained, next, if_pos some', tail, Option.map_some]
      rw [size, chunk, ← List.drop_drop, List.take_append_drop]

/-- An array of integers 0 to 255. -/
def IsByteArray (tx : Value) : Prop := ∃ items, tx = .array items ∧ ∀ v ∈ items, ∃ n, asU64 v = some n ∧ n ≤ 255

def IsEvenHex (tx : Value) : Prop :=
  ∃ h, tx = .string h ∧ (utf8Bytes h).length % 2 = 0 ∧ ∀ b ∈ utf8Bytes h, isHexDigit b = true

/-- An object whose `beef` is what a writer writes of some bytes. -/
def IsPaddedBase64 (tx : Value) : Prop :=
  ∃ fields b D, tx = .object fields ∧ (Value.object fields).get "beef" = some (.string b) ∧ utf8Bytes b = Base64.encode D

theorem decoding_isSome_iff (tx : Value) :
    (decoding tx).isSome = true ↔ IsByteArray tx ∨ IsEvenHex tx ∨ IsPaddedBase64 tx := by
  cases tx with
  | array items =>
    rw [decoding, mapM_byteOf_isSome, List.all_eq_true]
    simp [IsByteArray, IsEvenHex, IsPaddedBase64, Option.any_eq_true]
  | string h =>
    rw [decoding, unhex_isSome, Bool.and_eq_true, decide_eq_true_eq, List.all_eq_true]
    simp [IsByteArray, IsEvenHex, IsPaddedBase64]
  | object fields =>
    rw [decoding]
    simp only [IsByteArray, IsEvenHex, IsPaddedBase64, Value.object.injEq, reduceCtorEq, false_and, exists_false, false_or]
    constructor
    · intro decodes
      obtain ⟨D, read⟩ := Option.isSome_iff_exists.mp decodes
      simp only [Option.bind_eq_some_iff] at read
      obtain ⟨beef, field, b, isText, whole⟩ := read
      cases beef with
      | string s =>
        cases isText
        exact ⟨fields, b, D, rfl, field, Base64.decode_eq_some_iff.mp whole⟩
      | null | bool | number | array | object => cases isText
    · rintro ⟨_, b, D, rfl, field, written⟩
      have read : Base64.decode (utf8Bytes b) = some D := Base64.decode_eq_some_iff.mpr written
      rw [field]
      exact Option.isSome_iff_exists.mpr ⟨D, read⟩
  | null | bool | number => simp [decoding, IsByteArray, IsEvenHex, IsPaddedBase64]

/-- A carrier is of what decodes, and every slice and run of chunks is that of the whole decoding. -/
theorem carrier_slices (tx : Value) :
    ((Carrier.of tx).isSome = true ↔ IsByteArray tx ∨ IsEvenHex tx ∨ IsPaddedBase64 tx) ∧
      ∀ c, Carrier.of tx = some c → ∃ D, decoding tx = some D ∧ c.len = D.length ∧
        (∀ start max, c.bytes start max = (D.take (min (start + max) D.length)).drop start) ∧
        ∀ start calls, D.length - start < calls → (c.chunks start).drained calls = some (D.drop start) := by
  refine ⟨?_, fun c found => ?_⟩
  · rw [Carrier.of_isSome]
    exact decoding_isSome_iff tx
  · obtain ⟨D, decoded, holds⟩ := Carrier.of_eq_some found
    exact ⟨D, decoded, Carrier.len_eq holds, Carrier.bytes_eq holds,
      fun start calls enough => CarrierChunks.drained_eq holds calls enough⟩

/-- Two bytes in hex, read from the second on. -/
theorem shortHex_sliced : ∃ c, Carrier.of (.string "00fF") = some c ∧ c.bytes 1 5 = [0xff] := by
  obtain ⟨c, found⟩ := Option.isSome_iff_exists.mp
    ((carrier_slices (.string "00fF")).1.mpr (.inr (.inl ⟨"00fF", rfl, by decide, by decide +kernel⟩)))
  obtain ⟨D, decoded, -, sliced, -⟩ := (carrier_slices (.string "00fF")).2 c found
  have two : decoding (.string "00fF") = some [0x00, 0xff] := by decide
  rw [two, Option.some.injEq] at decoded
  refine ⟨c, found, ?_⟩
  rw [sliced, ← decoded]
  rfl

end MessageRelay.Door
