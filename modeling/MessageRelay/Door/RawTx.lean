import MessageRelay.Door.Saved
import MessageRelay.Library.Cursor

/-! The length of the raw transaction (BRC-12) that bytes start with, read off its counts and lengths. A `usize` has `word`
bits, and bytes in memory are fewer than half of what it counts. -/

namespace MessageRelay.Door
open MessageRelay.Library.Cursor

section
variable (word : Nat)

/-- An addition that is not checked. -/
def add (a b : Nat) : Reader Nat := if a + b < 2 ^ word then pure (a + b) else .fail .panic

def moveTo (later : Nat) : Reader Unit := fun _ _ => .ok ((), later)

def byteAt (i : Nat) : Reader UInt8 := fun bytes place =>
  match bytes[i]? with
  | some b => .ok (b, place)
  | none => .error .short

/-- `bytes.get(start..stop)`. -/
def bytesAt (start stop : Nat) : Reader (List UInt8) := fun bytes place =>
  if start ≤ stop ∧ stop ≤ bytes.length then .ok ((bytes.drop start).take (stop - start), place) else .error .short

/-- `le[..n].copy_from_slice(from)`. -/
def copied (le : List UInt8) (n : Nat) (from' : List UInt8) : Reader (List UInt8) :=
  if n ≤ le.length ∧ from'.length = n then pure (from' ++ le.drop n) else .fail .panic

/-- The bytes that follow the first of a CompactSize. -/
def following (lead : UInt8) : Option Nat :=
  if lead = 0xfd then some 2 else if lead = 0xfe then some 4 else if lead = 0xff then some 8 else none

/-- A CompactSize at the place, the place moved past it. -/
def varint : Reader Nat := do
  let here ← Reader.place
  let lead ← byteAt here
  match following lead with
  | none =>
    moveTo (← add word here 1)
    pure lead.toNat
  | some n =>
    let start ← add word here 1
    let le ← bytesAt start (← add word start n)
    let le ← copied (List.replicate 8 0) n le
    moveTo (← add word here (1 + n))
    pure (ofLeBytes le)

/-- So many bytes passed, where a `usize` holds the number and the place after them and the bytes go that far. -/
def skip (n : Nat) : Reader Unit := fun bytes place =>
  if n < 2 ^ word ∧ place + n < 2 ^ word ∧ place + n ≤ bytes.length then .ok ((), place + n) else .error .short

def rawInput : Reader Unit := do
  skip word 36
  let script ← varint word
  skip word script
  skip word 4

def rawOutput : Reader Unit := do
  skip word 8
  let script ← varint word
  skip word script

variable (steps : Nat)

/-- The transaction passed. Each loop may run so many rounds. -/
def rawTx : Reader Unit := do
  skip word 4
  let inputs ← varint word
  Reader.times (rawInput word) steps inputs
  let outputs ← varint word
  Reader.times (rawOutput word) steps outputs
  skip word 4

def rawTxLen (bytes : List UInt8) : Except Stop Nat := (rawTx word steps bytes 0).map Prod.snd

end

theorem following_le {lead : UInt8} {n : Nat} (wide : following lead = some n) : n ≤ 8 := by
  unfold following at wide
  split_ifs at wide <;> cases wide <;> decide

theorem add_of_lt {word a b : Nat} (fits : a + b < 2 ^ word) (bytes : List UInt8) (place : Nat) :
    add word a b bytes place = .ok (a + b, place) := by
  rw [add, if_pos fits]
  rfl

theorem byteAt_of_eq {bytes : List UInt8} {i place : Nat} {b : UInt8} (here : bytes[i]? = some b) :
    byteAt i bytes place = .ok (b, place) := by
  rw [byteAt, here]

theorem byteAt_of_none {bytes : List UInt8} {i place : Nat} (here : bytes[i]? = none) :
    byteAt i bytes place = .error .short := by
  rw [byteAt, here]

/-- How many bytes follow the first, none where it is itself the number. -/
def width (lead : UInt8) : Nat := (following lead).getD 0

/-- The number of a first byte and those that follow. -/
def worth (lead : UInt8) (digits : List UInt8) : Nat :=
  match following lead with
  | none => lead.toNat
  | some _ => ofLeBytes digits

theorem ofLeBytes_append_zeros (bytes : List UInt8) (n : Nat) :
    ofLeBytes (bytes ++ List.replicate n 0) = ofLeBytes bytes := by
  have zeros : ofLeBytes (List.replicate n 0) = 0 := by
    induction n with
    | zero => rfl
    | succ n ih => simpa [List.replicate_succ, ofLeBytes] using ih
  rw [ofLeBytes, List.foldr_append]
  change List.foldr _ (ofLeBytes (List.replicate n 0)) _ = _
  rw [zeros]
  rfl

/-! The bytes are no longer than `most`, which leaves room in a `usize` for a place past their end. -/

theorem varint_none {word : Nat} {bytes : List UInt8} {place : Nat} (here : bytes[place]? = none) :
    varint word bytes place = .error .short := by
  rw [varint, Reader.bind_of_ok (r := Reader.place) rfl]
  exact Reader.bind_of_error (byteAt_of_none here)

theorem sound_skip {word most : Nat} (n : Nat) : Reader.Sound most (skip word n) where
  advances := by
    intro bytes place v later read inside small
    unfold skip at read
    split_ifs at read with fits
    cases read
    exact ⟨Nat.le_add_right .., fits.2.2⟩
  stops := by
    intro bytes place stop failed inside small
    unfold skip at failed
    split_ifs at failed
    cases failed
    rfl

theorem moves_skip {word most n : Nat} (some' : 0 < n) : Reader.Moves most (skip word n) := by
  intro bytes place v later read inside small
  unfold skip at read
  split_ifs at read
  cases read
  omega

section
variable {word most : Nat} (room : most + 9 < 2 ^ word)
include room

theorem varint_byte {bytes : List UInt8} {place : Nat} {lead : UInt8} (small : bytes.length ≤ most)
    (here : bytes[place]? = some lead) (narrow : following lead = none) :
    varint word bytes place = .ok (lead.toNat, place + 1) := by
  have inside := (List.getElem?_eq_some_iff.mp here).1
  have moved := add_of_lt (show place + 1 < 2 ^ word by omega) bytes place
  rw [varint, Reader.bind_of_ok (r := Reader.place) rfl, Reader.bind_of_ok (byteAt_of_eq here), narrow]
  exact Reader.bind_of_ok moved

theorem varint_wide {bytes : List UInt8} {place : Nat} {lead : UInt8} {n : Nat} (small : bytes.length ≤ most)
    (here : bytes[place]? = some lead) (wide : following lead = some n) :
    varint word bytes place =
      if place + 1 + n ≤ bytes.length then .ok (ofLeBytes ((bytes.drop (place + 1)).take n), place + 1 + n)
      else .error .short := by
  have inside := (List.getElem?_eq_some_iff.mp here).1
  have narrow := following_le wide
  have start := add_of_lt (show place + 1 < 2 ^ word by omega) bytes place
  have stop := add_of_lt (show place + 1 + n < 2 ^ word by omega) bytes place
  have moved := add_of_lt (show place + (1 + n) < 2 ^ word by omega) bytes place
  rw [varint, Reader.bind_of_ok (r := Reader.place) rfl, Reader.bind_of_ok (byteAt_of_eq here), wide]
  refine (Reader.bind_of_ok start).trans ((Reader.bind_of_ok stop).trans ?_)
  split_ifs with within
  · have read : bytesAt (place + 1) (place + 1 + n) bytes place = .ok ((bytes.drop (place + 1)).take n, place) := by
      rw [bytesAt, if_pos ⟨by omega, within⟩, Nat.add_sub_cancel_left]
    have length : ((bytes.drop (place + 1)).take n).length = n := by
      rw [List.length_take, List.length_drop]
      omega
    have filled : copied (List.replicate 8 0) n ((bytes.drop (place + 1)).take n) bytes place =
        .ok ((bytes.drop (place + 1)).take n ++ List.replicate (8 - n) 0, place) := by
      rw [copied, if_pos ⟨by simpa using narrow, length⟩, List.drop_replicate]
      rfl
    refine (Reader.bind_of_ok read).trans ((Reader.bind_of_ok filled).trans ((Reader.bind_of_ok moved).trans ?_))
    change Except.ok (ofLeBytes (_ ++ _), place + (1 + n)) = _
    rw [ofLeBytes_append_zeros, Nat.add_assoc]
  · have read : bytesAt (place + 1) (place + 1 + n) bytes place = .error .short := by
      rw [bytesAt, if_neg (fun both => within both.2)]
    exact Reader.bind_of_error read

theorem varint_some {bytes : List UInt8} {place : Nat} {lead : UInt8} (small : bytes.length ≤ most)
    (here : bytes[place]? = some lead) :
    varint word bytes place =
      if place + 1 + width lead ≤ bytes.length then
        .ok (worth lead ((bytes.drop (place + 1)).take (width lead)), place + 1 + width lead)
      else .error .short := by
  have inside := (List.getElem?_eq_some_iff.mp here).1
  cases wide : following lead with
  | none =>
    rw [varint_byte room small here wide, width, worth, wide]
    exact (if_pos (Nat.succ_le_of_lt inside)).symm
  | some n =>
    rw [varint_wide room small here wide, width, worth, wide]
    rfl

theorem sound_varint : Reader.Sound most (varint word) where
  advances := by
    intro bytes place v later read inside small
    cases here : bytes[place]? with
    | none =>
      rw [varint_none here] at read
      cases read
    | some lead =>
      rw [varint_some room small here] at read
      split_ifs at read with within
      cases read
      exact ⟨by omega, within⟩
  stops := by
    intro bytes place stop failed inside small
    cases here : bytes[place]? with
    | none =>
      rw [varint_none here] at failed
      cases failed
      rfl
    | some lead =>
      rw [varint_some room small here] at failed
      split_ifs at failed
      cases failed
      rfl

theorem measures_varint {lead : UInt8} {digits : List UInt8} (length : digits.length = width lead) :
    Reader.Measures most (varint word) (lead :: digits) (worth lead digits) where
  reads := by
    intro front rest small
    have here : (front ++ (lead :: digits ++ rest))[front.length]? = some lead := by simp
    have within : front.length + 1 + width lead ≤ (front ++ (lead :: digits ++ rest)).length := by
      rw [← length]
      simp only [List.length_append, List.length_cons]
      omega
    have after : ((front ++ (lead :: digits ++ rest)).drop (front.length + 1)).take (width lead) = digits := by
      rw [List.drop_append, List.drop_eq_nil_of_le (Nat.le_succ _), Nat.add_sub_cancel_left, ← length]
      exact List.take_left
    rw [varint_some room small here, if_pos within, after, List.length_cons, length, Nat.add_assoc, Nat.add_comm 1]
  cut := by
    intro front part cut strict small
    cases part with
    | nil => exact varint_none (by simp)
    | cons lead' digits' =>
      obtain ⟨rfl, within⟩ := List.cons_prefix_cons.mp cut
      have here : (front ++ lead' :: digits')[front.length]? = some lead' := by simp
      have fewer : digits'.length < digits.length := by
        refine Nat.lt_of_le_of_ne within.length_le (fun same => strict ?_)
        rw [within.eq_of_length same]
      rw [varint_some room small here, if_neg (by simp only [List.length_append, List.length_cons]; omega)]

theorem measures_skip {segment : List UInt8} {n : Nat} (length : segment.length = n) :
    Reader.Measures most (skip word n) segment () where
  reads := by
    intro front rest small
    have within : front.length + n ≤ (front ++ (segment ++ rest)).length := by
      rw [← length]
      simp only [List.length_append]
      omega
    rw [skip, if_pos ⟨by omega, by omega, within⟩, length]
  cut := by
    intro front part cut strict small
    have fewer : part.length < n :=
      Nat.lt_of_le_of_ne (length ▸ cut.length_le) (fun same => strict (cut.eq_of_length (same.trans length.symm)))
    exact if_neg (fun fits => by simp only [List.length_append] at fits; omega)

theorem sound_rawInput : Reader.Sound most (rawInput word) :=
  (sound_skip 36).bind (fun _ => (sound_varint room).bind (fun script =>
    (sound_skip script).bind (fun _ => sound_skip 4)))

theorem sound_rawOutput : Reader.Sound most (rawOutput word) :=
  (sound_skip 8).bind (fun _ => (sound_varint room).bind (fun script => sound_skip script))

theorem moves_rawInput : Reader.Moves most (rawInput word) :=
  Reader.Moves.bind (moves_skip (by decide)) (sound_skip 36) (fun _ => (sound_varint room).bind (fun script =>
    (sound_skip script).bind (fun _ => sound_skip 4)))

theorem moves_rawOutput : Reader.Moves most (rawOutput word) :=
  Reader.Moves.bind (moves_skip (by decide)) (sound_skip 8) (fun _ => (sound_varint room).bind (fun script =>
    sound_skip script))

/-- Whatever counts and lengths the bytes claim, no loop runs more rounds than there are bytes. -/
theorem sound_rawTx {steps : Nat} (enough : most < steps) : Reader.Sound most (rawTx word steps) :=
  (sound_skip 4).bind (fun _ => (sound_varint room).bind (fun inputs =>
    ((sound_rawInput room).times (moves_rawInput room) enough inputs).bind (fun _ =>
      (sound_varint room).bind (fun outputs =>
        ((sound_rawOutput room).times (moves_rawOutput room) enough outputs).bind (fun _ => sound_skip 4)))))

end

/-! A raw transaction by its layout. -/

/-- How a number may be spelled: in one byte, or in two, four or eight behind the byte that says so. -/
inductive Spells : Nat → List UInt8 → Prop
  | one {n : Nat} (fits : n < 0xfd) : Spells n [UInt8.ofNat n]
  | two {n : Nat} (fits : n < 2 ^ 16) : Spells n (0xfd :: leBytes 2 n)
  | four {n : Nat} (fits : n < 2 ^ 32) : Spells n (0xfe :: leBytes 4 n)
  | eight {n : Nat} (fits : n < 2 ^ 64) : Spells n (0xff :: leBytes 8 n)

structure TxIn where
  outpoint : List UInt8
  scriptLen : List UInt8
  script : List UInt8
  sequence : List UInt8
  outpoint_length : outpoint.length = 36
  script_spelled : Spells script.length scriptLen
  sequence_length : sequence.length = 4

structure TxOut where
  value : List UInt8
  scriptLen : List UInt8
  script : List UInt8
  value_length : value.length = 8
  script_spelled : Spells script.length scriptLen

structure RawTx where
  version : List UInt8
  inputCount : List UInt8
  inputs : List TxIn
  outputCount : List UInt8
  outputs : List TxOut
  lockTime : List UInt8
  version_length : version.length = 4
  inputs_spelled : Spells inputs.length inputCount
  outputs_spelled : Spells outputs.length outputCount
  lockTime_length : lockTime.length = 4

def TxIn.bytes (input : TxIn) : List UInt8 := input.outpoint ++ (input.scriptLen ++ (input.script ++ input.sequence))

def TxOut.bytes (output : TxOut) : List UInt8 := output.value ++ (output.scriptLen ++ output.script)

def RawTx.bytes (t : RawTx) : List UInt8 :=
  t.version ++ (t.inputCount ++ ((t.inputs.map TxIn.bytes).flatten ++
    (t.outputCount ++ ((t.outputs.map TxOut.bytes).flatten ++ t.lockTime))))

theorem Spells.shape {n : Nat} {spelled : List UInt8} (spells : Spells n spelled) :
    ∃ lead digits, spelled = lead :: digits ∧ digits.length = width lead ∧ worth lead digits = n := by
  cases spells with
  | one fits =>
    have lead : (UInt8.ofNat n).toNat = n := UInt8.toNat_ofNat_of_lt (fits.trans (by decide))
    have narrow : following (UInt8.ofNat n) = none := by
      have other (b : UInt8) (large : 0xfd ≤ b.toNat) : UInt8.ofNat n ≠ b := fun same => by
        rw [← same, lead] at large
        omega
      rw [following, if_neg (other _ (by decide)), if_neg (other _ (by decide)), if_neg (other _ (by decide))]
    refine ⟨_, [], rfl, by rw [width, narrow]; rfl, ?_⟩
    rw [worth, narrow]
    exact lead
  | two fits => exact ⟨_, _, rfl, length_leBytes .., ofLeBytes_of_lt fits⟩
  | four fits => exact ⟨_, _, rfl, length_leBytes .., ofLeBytes_of_lt fits⟩
  | eight fits => exact ⟨_, _, rfl, length_leBytes .., ofLeBytes_of_lt fits⟩

section
variable {word most : Nat} (room : most + 9 < 2 ^ word)
include room

theorem Spells.measures {n : Nat} {spelled : List UInt8} (spells : Spells n spelled) :
    Reader.Measures most (varint word) spelled n := by
  obtain ⟨lead, digits, rfl, length, rfl⟩ := spells.shape
  exact measures_varint room length

theorem TxIn.measures (input : TxIn) : Reader.Measures most (rawInput word) input.bytes () :=
  (measures_skip room input.outpoint_length).bind ((input.script_spelled.measures room).bind
    ((measures_skip room rfl).bind (measures_skip room input.sequence_length)))

theorem TxOut.measures (output : TxOut) : Reader.Measures most (rawOutput word) output.bytes () :=
  (measures_skip room output.value_length).bind ((output.script_spelled.measures room).bind (measures_skip room rfl))

theorem RawTx.measures (t : RawTx) {steps : Nat} (enough : most < steps) :
    Reader.Measures most (rawTx word steps) t.bytes () := by
  have inputs : ∀ segment ∈ t.inputs.map TxIn.bytes, segment ≠ [] ∧ Reader.Measures most (rawInput word) segment () := by
    intro segment member
    obtain ⟨input, -, rfl⟩ := List.mem_map.mp member
    refine ⟨List.ne_nil_of_length_pos ?_, input.measures room⟩
    simp only [TxIn.bytes, List.length_append, input.outpoint_length]
    omega
  have outputs : ∀ segment ∈ t.outputs.map TxOut.bytes, segment ≠ [] ∧ Reader.Measures most (rawOutput word) segment () := by
    intro segment member
    obtain ⟨output, -, rfl⟩ := List.mem_map.mp member
    refine ⟨List.ne_nil_of_length_pos ?_, output.measures room⟩
    simp only [TxOut.bytes, List.length_append, output.value_length]
    omega
  have ins := Reader.Measures.times inputs enough
  have outs := Reader.Measures.times outputs enough
  rw [List.length_map] at ins outs
  exact (measures_skip room t.version_length).bind ((t.inputs_spelled.measures room).bind (ins.bind
    ((t.outputs_spelled.measures room).bind (outs.bind (measures_skip room t.lockTime_length)))))

end

theorem room_of_held {word length : Nat} (wide : 16 ≤ word) (held : length < 2 ^ (word - 1)) : length + 9 < 2 ^ word := by
  have double : 2 ^ word = 2 ^ (word - 1) * 2 := by
    rw [← pow_succ]
    congr 1
    omega
  have least : 2 ^ 15 ≤ 2 ^ (word - 1) := Nat.pow_le_pow_right (by decide) (by omega)
  omega

theorem rawTxLen_append {word steps : Nat} {t : RawTx} {s : List UInt8} (room : (t.bytes ++ s).length + 9 < 2 ^ word)
    (enough : (t.bytes ++ s).length < steps) : rawTxLen word steps (t.bytes ++ s) = .ok t.bytes.length := by
  have read := (t.measures room enough).reads [] s le_rfl
  rw [List.nil_append, List.length_nil, Nat.zero_add] at read
  rw [rawTxLen, read]
  rfl

/-- The length of a raw transaction is read whatever follows it, no cut of one has a length, and no bytes stop the program
or keep a loop running for more rounds than there are bytes. -/
theorem rawTxLen_exact {word : Nat} (wide : 16 ≤ word) (bytes : List UInt8) (held : bytes.length < 2 ^ (word - 1))
    {steps : Nat} (enough : bytes.length < steps) :
    (∀ (t : RawTx) (s : List UInt8), bytes = t.bytes ++ s → rawTxLen word steps bytes = .ok t.bytes.length) ∧
    (∀ t : RawTx, bytes <+: t.bytes → bytes ≠ t.bytes → rawTxLen word steps bytes = .error .short) ∧
    ∀ stop, rawTxLen word steps bytes = .error stop → stop = .short := by
  have room := room_of_held wide held
  refine ⟨?whole, ?cut, ?ends⟩
  case whole =>
    rintro t s rfl
    exact rawTxLen_append room enough
  case cut =>
    intro t cut strict
    have read := (t.measures room enough).cut [] bytes cut strict le_rfl
    exact congrArg (Except.map Prod.snd) read
  case ends =>
    intro stop failed
    cases read : rawTx word steps bytes 0 with
    | ok read' =>
      rw [rawTxLen, read] at failed
      cases failed
    | error stop' =>
      rw [rawTxLen, read] at failed
      cases failed
      exact (sound_rawTx room enough).stops read (Nat.zero_le _) le_rfl

/-- Of one input and one output, their counts spelled with two bytes and four, their scripts' with eight and with one. -/
def spelledTx : RawTx where
  version := [1, 0, 0, 0]
  inputCount := [0xfd, 1, 0]
  inputs := [⟨List.replicate 36 9, [0xff, 2, 0, 0, 0, 0, 0, 0, 0], [0x51, 0x51], List.replicate 4 0xff, rfl,
    .eight (n := 2) (by decide), rfl⟩]
  outputCount := [0xfe, 1, 0, 0, 0]
  outputs := [⟨List.replicate 8 7, [1], [0x51], rfl, .one (n := 1) (by decide)⟩]
  lockTime := [0, 0, 0, 0]
  version_length := rfl
  inputs_spelled := .two (n := 1) (by decide)
  outputs_spelled := .four (n := 1) (by decide)
  lockTime_length := rfl

theorem spelledTx_length : rawTxLen 32 99 (spelledTx.bytes ++ [1, 2, 3]) = .ok 77 :=
  (rawTxLen_exact (by decide) (spelledTx.bytes ++ [1, 2, 3]) (by decide) (by decide)).1 spelledTx [1, 2, 3] rfl

end MessageRelay.Door
