import MessageRelay.Archive.Json
import MessageRelay.Handoff.Serve
import MessageRelay.Send.Handed

/-! What is streamed from the bucket is the text of `payment.tx` in the shape it came in, however the bytes are cut into
chunks. It is no longer than told before it is read. -/

namespace MessageRelay.Handoff
open MessageRelay.Lane MessageRelay.Library MessageRelay.Library.Json MessageRelay.Session MessageRelay.Payments
open MessageRelay.Send

section
variable {σ : Type} (f : σ → Bytes → σ)

theorem R2Chunks.each_of_error {chunks : R2Chunks} {e : String} (read : chunks.next = .error e) (s : σ) :
    chunks.each f s = .error e := by
  rw [R2Chunks.each]
  split <;> simp_all

theorem R2Chunks.each_of_end {chunks later : R2Chunks} (read : chunks.next = .ok (none, later)) (s : σ) :
    chunks.each f s = .ok s := by
  rw [R2Chunks.each]
  split <;> simp_all

theorem R2Chunks.each_of_chunk {chunks later : R2Chunks} {chunk : Bytes} (read : chunks.next = .ok (some chunk, later))
    (s : σ) : chunks.each f s = later.each f (f s chunk) := by
  rw [R2Chunks.each]
  split <;> simp_all

/-- A loop over the chunks ends where every read of the stream gave one and they are as many bytes as were due. -/
theorem R2Chunks.each_ok_iff (chunks : R2Chunks) (s t : σ) : chunks.each f s = .ok t ↔
    ∃ read : List Bytes, chunks.stream = read.map .ok ∧ chunks.due ≤ read.flatten.length ∧ t = read.foldl f s := by
  obtain ⟨stream, due⟩ := chunks
  induction stream generalizing due s with
  | nil =>
    by_cases short : 0 < due
    · have failed : R2Chunks.next ⟨[], due⟩ = .error ("R2 body ended " ++ toString due ++ " bytes short") := if_pos short
      rw [each_of_error f failed]
      simp only [reduceCtorEq, false_iff]
      rintro ⟨read, stream, enough, -⟩
      rw [List.eq_nil_of_map_eq_nil stream.symm] at enough
      exact absurd enough (Nat.not_le.mpr short)
    · have ended : R2Chunks.next ⟨[], due⟩ = .ok (none, ⟨[], due⟩) := if_neg short
      rw [each_of_end f ended]
      constructor
      · rintro ⟨rfl⟩
        exact ⟨[], rfl, Nat.le_of_not_lt short, rfl⟩
      · rintro ⟨read, stream, -, rfl⟩
        rw [List.eq_nil_of_map_eq_nil stream.symm]
        rfl
  | cons first rest ih =>
    cases first with
    | error e =>
      rw [each_of_error f rfl]
      simp only [reduceCtorEq, false_iff]
      rintro ⟨read, stream, -⟩
      cases read <;> cases stream
    | ok chunk =>
      have first : R2Chunks.next ⟨.ok chunk :: rest, due⟩ = .ok (some chunk, ⟨rest, due - chunk.length⟩) := rfl
      rw [each_of_chunk f first, ih]
      constructor
      · rintro ⟨read, rfl, enough, rfl⟩
        refine ⟨chunk :: read, rfl, ?_, rfl⟩
        rw [List.flatten_cons, List.length_append]
        exact Nat.sub_le_iff_le_add'.mp enough
      · rintro ⟨read, stream, enough, rfl⟩
        cases read with
        | nil => cases stream
        | cons first read =>
          cases stream
          rw [List.flatten_cons, List.length_append] at enough
          exact ⟨read, rfl, Nat.sub_le_iff_le_add'.mpr enough, rfl⟩

end

/-- Bytes as `payment.tx`, in a shape. -/
def txValue (bytes : Bytes) : TxShape → Value
  | .array => .array (bytes.map (fun b => .number (toString b.toNat)))
  | .hex => .string (hexEncode bytes)
  | .base64 => .object [("beef", .string (numberText (Base64.encode bytes)))]

theorem foldl_append_flatMap {α β : Type} (f : α → List β) (chunks : List (List α)) (text : List β) :
    chunks.foldl (fun text chunk => text ++ chunk.flatMap f) text = text ++ chunks.flatten.flatMap f := by
  induction chunks generalizing text with
  | nil => simp
  | cons chunk rest ih => rw [List.foldl_cons, ih, List.flatten_cons, List.flatMap_append, List.append_assoc]

theorem hexEncode_append (a b : Bytes) : hexEncode (a ++ b) = hexEncode a ++ hexEncode b := by
  rw [hexEncode, List.flatMap_append, String.ofList_append]
  rfl

theorem foldl_hexEncode (chunks : List Bytes) (text : Text) :
    chunks.foldl (fun text chunk => text ++ utf8Bytes (hexEncode chunk)) text =
      text ++ utf8Bytes (hexEncode chunks.flatten) := by
  induction chunks generalizing text with
  | nil => exact (List.append_nil text).symm
  | cons chunk rest ih =>
    rw [List.foldl_cons, ih, List.flatten_cons, hexEncode_append, utf8Bytes_append, List.append_assoc]

/-- Written and held together are what has come, whatever comes next. -/
theorem foldl_writeGroups (chunks : List Bytes) (state : Text × Bytes) (rest : Bytes) :
    (chunks.foldl writeGroups state).1 ++ Base64.encode ((chunks.foldl writeGroups state).2 ++ rest) =
      state.1 ++ Base64.encode (state.2 ++ (chunks.flatten ++ rest)) := by
  induction chunks generalizing state with
  | nil => rfl
  | cons chunk later ih =>
    have cut : ((state.2 ++ chunk).take ((state.2 ++ chunk).length / 3 * 3)).length % 3 = 0 := by
      rw [List.length_take_of_le (Nat.div_mul_le_self ..)]
      exact Nat.mul_mod_left ..
    rw [List.foldl_cons, ih, writeGroups, List.append_assoc, ← Base64.encode_append _ cut, ← List.append_assoc,
      List.take_append_drop, List.flatten_cons]
    simp only [List.append_assoc]

theorem numbered_items (bytes : Bytes) (some' : bytes ≠ []) :
    bytes.flatMap numbered = utf8Bytes (Value.textItems (bytes.map (fun b => .number (toString b.toNat)))) ++ [comma] := by
  induction bytes with
  | nil => exact absurd rfl some'
  | cons b rest ih =>
    cases rest with
    | nil => simp [numbered, Value.textItems, Value.text]
    | cons c later =>
      have tail := ih (List.cons_ne_nil c later)
      have step : Value.textItems ((b :: c :: later).map (fun b => .number (toString b.toNat))) =
          toString b.toNat ++ "," ++ Value.textItems ((c :: later).map (fun b => .number (toString b.toNat))) := by
        rw [List.map_cons, Value.textItems]
        rfl
      rw [List.flatMap_cons, tail, numbered, step, utf8Bytes_append, utf8Bytes_append]
      simp only [List.append_assoc]
      rfl

theorem array_closed (bytes : Bytes) :
    let text := [openArray] ++ bytes.flatMap numbered
    (if text.getLast? = some comma then text.dropLast else text) ++ [closeArray] = valueText (txValue bytes .array) := by
  by_cases none' : bytes = []
  · subst none'
    rfl
  · intro text
    have written : text =
        openArray :: utf8Bytes (Value.textItems (bytes.map (fun b => .number (toString b.toNat)))) ++ [comma] := by
      simp only [text]
      rw [numbered_items bytes none']
      rfl
    rw [written, List.getLast?_concat, if_pos rfl, List.dropLast_concat, valueText, txValue, Value.text,
      utf8Bytes_append, utf8Bytes_append]
    rfl

/-- The letters of base64 are ASCII that stands for itself in a string. -/
theorem letter_plain : ∀ n < 64, isPlain (Char.ofNat (Base64.letter n).toNat) = true ∧ (Base64.letter n).toNat < 0x80 := by
  decide

theorem encode_plain (bytes : Bytes) : ∀ c ∈ (numberText (Base64.encode bytes)).toList, isPlain c = true := by
  intro c member
  rw [numberText, String.toList_ofList, List.mem_map] at member
  obtain ⟨b, written, rfl⟩ := member
  rcases Base64.mem_encode written with ⟨n, small, rfl⟩ | rfl
  · exact (letter_plain n small).1
  · decide

/-- Text in base64 is ASCII. -/
theorem utf8Bytes_encode (bytes : Bytes) : utf8Bytes (numberText (Base64.encode bytes)) = Base64.encode bytes := by
  have low : ∀ b ∈ Base64.encode bytes, b.toNat < 0x80 := by
    intro b written
    rcases Base64.mem_encode written with ⟨n, small, rfl⟩ | rfl
    · exact (letter_plain n small).2
    · decide
  exact utf8Bytes_numberText low

theorem beef_texts : beefOpen = utf8Bytes "\x7b" ++ (quotedText "beef" ++ (utf8Bytes ":" ++ [quote])) ∧
    beefClose = [quote] ++ utf8Bytes "\x7d" ∧ beefOpen.length = 9 ∧ beefClose.length = 2 := by decide

theorem base64_closed (bytes : Bytes) :
    beefOpen ++ Base64.encode bytes ++ beefClose = valueText (txValue bytes .base64) := by
  obtain ⟨opens, closes, -⟩ := beef_texts
  have empty : utf8Bytes "" = [] := rfl
  simp only [valueText, txValue, Value.text, Value.textFields, Value.textField, List.isEmpty_nil, if_true,
    utf8Bytes_append, Value.utf8Bytes_quoted, quotedText_plain (encode_plain bytes), utf8Bytes_encode, opens, closes, empty]
  simp

theorem hex_closed (bytes : Bytes) :
    [quote] ++ utf8Bytes (hexEncode bytes) ++ [quote] = valueText (txValue bytes .hex) := by
  rw [valueText, txValue, Value.text, Value.utf8Bytes_quoted, quotedText_plain (hexEncode_plain bytes)]
  rfl

/-- What the bucket gives for a key, to its end: chunks of the object the stamp is of, as many bytes as its size. -/
def GivesChunks (bucket : Bucket) (key : String) (stamp : Stamp) (stream : List Bytes) : Prop :=
  if stamp.size = 0 then stream = []
  else ∃ object : R2Object, bucket key = .ok (some object) ∧ object.etag = stamp.etag ∧
    object.body = .ok (stream.map .ok) ∧ stamp.size ≤ stream.flatten.length

/-- A loop over what the bucket gives for a key. -/
theorem each_read_iff {σ : Type} (f : σ → Bytes → σ) (bucket : Bucket) (key : String) (stamp : Stamp) (s t : σ) :
    (bucket.read key 0 stamp).bind (fun chunks => chunks.each f s) = .ok t ↔
      ∃ stream : List Bytes, GivesChunks bucket key stamp stream ∧ t = stream.foldl f s := by
  simp only [Bucket.read, GivesChunks]
  by_cases empty : stamp.size = 0
  · simp only [if_pos (Nat.le_of_eq empty), if_pos empty]
    change R2Chunks.each f ⟨[], 0⟩ s = .ok t ↔ _
    rw [R2Chunks.each_of_end f (show R2Chunks.next ⟨[], 0⟩ = .ok (none, ⟨[], 0⟩) from rfl)]
    simp [eq_comm]
  · simp only [if_neg (show ¬ stamp.size ≤ 0 by omega), if_neg empty]
    cases answer : bucket key with
    | error e => simp [Except.bind]
    | ok found =>
      cases found with
      | none => simp [Except.bind]
      | some object =>
        by_cases same : object.etag = stamp.etag
        · cases body : object.body with
          | error e => simp [Except.bind, same, body]
          | ok stream =>
            simp only [same, ne_eq, not_true_eq_false, if_false, body, Except.bind, R2Chunks.each_ok_iff, Nat.sub_zero]
            constructor
            · rintro ⟨read, rfl, enough, rfl⟩
              exact ⟨read, ⟨object, rfl, same, body, enough⟩, rfl⟩
            · rintro ⟨read, ⟨_, ⟨rfl⟩, -, body', enough⟩, rfl⟩
              rw [body] at body'
              cases body'
              exact ⟨read, rfl, enough, rfl⟩
        · simp only [ne_eq, same, not_false_eq_true, if_true, Except.bind, reduceCtorEq, false_iff]
          rintro ⟨read, ⟨_, ⟨rfl⟩, same', -⟩, -⟩
          exact same same'

/-- The text is that of the bytes the bucket gives, however it cuts them. -/
theorem txText_ok_iff (bucket : Bucket) (key : String) (stamp : Stamp) (shape : TxShape) (text : Text) :
    txText bucket key stamp shape = .ok text ↔
      ∃ stream : List Bytes, GivesChunks bucket key stamp stream ∧ text = valueText (txValue stream.flatten shape) := by
  have mapped {σ : Type} (f : σ → Bytes → σ) (s : σ) (close : σ → Text) :
      ((bucket.read key 0 stamp).bind (fun chunks => chunks.each f s)).map close = .ok text ↔
        ∃ stream : List Bytes, GivesChunks bucket key stamp stream ∧ text = close (stream.foldl f s) := by
    have whole := each_read_iff f bucket key stamp s
    cases ended : (bucket.read key 0 stamp).bind (fun chunks => chunks.each f s) with
    | error e =>
      simp only [ended, reduceCtorEq, false_iff, not_exists, not_and] at whole
      simp only [Except.map, reduceCtorEq, false_iff]
      rintro ⟨stream, gives, -⟩
      exact whole _ stream gives rfl
    | ok last =>
      simp only [ended, Except.ok.injEq] at whole
      simp only [Except.map, Except.ok.injEq]
      constructor
      · rintro rfl
        obtain ⟨stream, gives, rfl⟩ := (whole last).mp rfl
        exact ⟨stream, gives, rfl⟩
      · rintro ⟨stream, gives, rfl⟩
        rw [(whole _).mpr ⟨stream, gives, rfl⟩]
  cases shape with
  | array =>
    have closing : txText bucket key stamp .array = ((bucket.read key 0 stamp).bind (fun chunks =>
        chunks.each (fun text chunk => text ++ chunk.flatMap numbered) [openArray])).map
          (fun text => (if text.getLast? = some comma then text.dropLast else text) ++ [closeArray]) := by
      rw [txText]
      cases bucket.read key 0 stamp with
      | error => rfl
      | ok chunks =>
        change (chunks.each _ _ >>= _) = (chunks.each _ _).map _
        cases chunks.each (fun text chunk => text ++ chunk.flatMap numbered) [openArray] <;> rfl
    rw [closing, mapped]
    simp only [foldl_append_flatMap]
    simp only [array_closed]
  | hex =>
    have closing : txText bucket key stamp .hex = ((bucket.read key 0 stamp).bind (fun chunks =>
        chunks.each (fun text chunk => text ++ utf8Bytes (hexEncode chunk)) [quote])).map (fun text => text ++ [quote]) := by
      rw [txText]
      cases bucket.read key 0 stamp with
      | error => rfl
      | ok chunks =>
        change (chunks.each _ _ >>= _) = (chunks.each _ _).map _
        cases chunks.each (fun text chunk => text ++ utf8Bytes (hexEncode chunk)) [quote] <;> rfl
    rw [closing, mapped]
    simp only [foldl_hexEncode, hex_closed]
  | base64 =>
    have closing : txText bucket key stamp .base64 = ((bucket.read key 0 stamp).bind (fun chunks =>
        chunks.each writeGroups (beefOpen, []))).map
          (fun state => state.1 ++ Base64.encode state.2 ++ beefClose) := by
      rw [txText]
      cases bucket.read key 0 stamp with
      | error => rfl
      | ok chunks =>
        change (chunks.each _ _ >>= _) = (chunks.each _ _).map _
        cases chunks.each writeGroups (beefOpen, []) <;> rfl
    rw [closing, mapped]
    have whole (stream : List Bytes) : (stream.foldl writeGroups (beefOpen, [])).1 ++
        Base64.encode (stream.foldl writeGroups (beefOpen, [])).2 = beefOpen ++ Base64.encode stream.flatten := by
      have grouped := foldl_writeGroups stream (beefOpen, []) []
      simpa using grouped
    simp only [whole, base64_closed]

theorem length_numbered (bytes : Bytes) : (bytes.flatMap numbered).length ≤ 4 * bytes.length := by
  have short (n : Nat) (byte : n < 256) : (utf8Bytes (toString n)).length ≤ 3 := by
    rw [utf8Bytes_ascii (fun c member => (toString_digit member).2.trans_lt (by decide)), List.length_map, toList_toString]
    exact (Nat.length_toDigits_le_iff (by decide) (by decide)).mpr (byte.trans (by decide))
  induction bytes with
  | nil => exact le_rfl
  | cons b rest ih =>
    have first := short b.toNat b.toNat_lt
    simp only [List.flatMap_cons, numbered, List.length_append, List.length_cons, List.length_nil]
    omega

theorem utf8Bytes_hexEncode (bytes : Bytes) :
    utf8Bytes (hexEncode bytes) = (hexEncode bytes).toList.map (fun c => UInt8.ofNat c.toNat) := by
  refine utf8Bytes_ascii (fun c member => ?_)
  have plain := hexEncode_plain bytes c member
  simp only [isPlain, Bool.and_eq_true, decide_eq_true_eq] at plain
  exact plain.1.1.2

theorem length_hexEncode (bytes : Bytes) : (utf8Bytes (hexEncode bytes)).length = 2 * bytes.length := by
  rw [utf8Bytes_hexEncode, List.length_map, hexEncode, String.toList_ofList, List.length_flatMap]
  simp [Nat.mul_comm]

/-- The text is no longer than told by the bytes' number. -/
theorem length_txValue (bytes : Bytes) (small : bytes.length < 2 ^ 60) (shape : TxShape) :
    (valueText (txValue bytes shape)).length ≤ encodedLen bytes.length shape := by
  cases shape with
  | array =>
    have closed := array_closed bytes
    have short := length_numbered bytes
    simp only at closed
    rw [← closed, encodedLen]
    split
    · rw [List.length_append, List.length_dropLast, List.length_append, List.length_singleton, List.length_singleton]
      omega
    · rw [List.length_append, List.length_append, List.length_singleton, List.length_singleton]
      omega
  | hex =>
    rw [← hex_closed, List.length_append, List.length_append, length_hexEncode, List.length_singleton, encodedLen]
    omega
  | base64 =>
    obtain ⟨-, -, opens, closes⟩ := beef_texts
    rw [← base64_closed, List.length_append, List.length_append, opens, closes, Base64.length_encode, encodedLen]
    omega

theorem txValue_writable (range : Range) (n : Nat) (bytes : Bytes) (shape : TxShape) :
    Value.Writable range (n + 1) (txValue bytes shape) := by
  cases shape with
  | array =>
    refine .array (fun item member => ?_)
    obtain ⟨b, -, rfl⟩ := List.mem_map.mp member
    exact Value.Writable.natural range (b.toNat_lt.trans (by decide))
  | hex => exact .string
  | base64 => exact .object (List.pairwise_singleton ..) (List.forall_mem_singleton.mpr .string)

theorem unhex_hexEncode (bytes : Bytes) : Door.unhex (utf8Bytes (hexEncode bytes)) = some bytes := by
  have digit : ∀ n < 16, hexValue (UInt8.ofNat (hexOfNibble n).toNat) = some n := by decide
  rw [utf8Bytes_hexEncode, hexEncode, String.toList_ofList]
  induction bytes with
  | nil => rfl
  | cons b rest ih =>
    have bound := b.toNat_lt
    have value : b.toNat / 16 * 16 + b.toNat % 16 = b.toNat := by omega
    simp only [List.flatMap_cons, List.cons_append, List.nil_append, List.map_cons, Door.unhex,
      digit _ (show b.toNat / 16 < 16 by omega), digit _ (show b.toNat % 16 < 16 by omega), ih, Option.bind_eq_bind,
      Option.bind_some, value, UInt8.ofNat_toNat]
    rfl

/-- The value decodes to the bytes, in every shape. -/
theorem decoding_txValue (bytes : Bytes) (shape : TxShape) : Door.decoding (txValue bytes shape) = some bytes := by
  cases shape with
  | array =>
    rw [txValue, Door.decoding]
    induction bytes with
    | nil => rfl
    | cons b rest ih =>
      have read : byteOf (.number (toString b.toNat)) = some b := by
        rw [byteOf, asU64_toString (b.toNat_lt.trans (by decide)), Option.bind_some,
          if_pos (Nat.le_of_lt_succ b.toNat_lt), UInt8.ofNat_toNat]
      rw [List.map_cons, List.mapM_cons, read, ih]
      rfl
  | hex => exact unhex_hexEncode bytes
  | base64 =>
    have found : (Value.object [("beef", .string (numberText (Base64.encode bytes)))]).get "beef" =
        some (.string (numberText (Base64.encode bytes))) := rfl
    rw [txValue, Door.decoding, found, Option.bind_some]
    change Base64.decode (utf8Bytes (numberText (Base64.encode bytes))) = some bytes
    rw [utf8Bytes_encode, Base64.decode_encode]

end MessageRelay.Handoff
