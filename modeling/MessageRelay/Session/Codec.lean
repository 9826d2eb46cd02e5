import MessageRelay.Lane.Window
import MessageRelay.Library.Joined
import MessageRelay.Send.JsonValue

/-! The packets on the wire: a Socket.IO packet as a type digit, a namespace, an acknowledgment id and JSON text with
nothing between the last two, inside an Engine.IO packet, of which a polling body holds several. -/

namespace MessageRelay.Session.Codec
open MessageRelay.Session MessageRelay.Library MessageRelay.Library.Json MessageRelay.Lane

/-- Between the packets of one polling body. -/
def recordSep : Char := '\x1e'

inductive CodecError where
  | emptyPacket
  | unknownType (c : Char)
  | malformed (text : String)
  deriving DecidableEq, Repr

inductive EngineIoPacket where
  | opened (payload : String)
  | close
  | ping (payload : String)
  | pong (payload : String)
  | message (payload : String)
  | upgrade
  | noop
  deriving DecidableEq, Repr

inductive SocketIoPacket where
  | connect (nsp : String) (data : Option Value)
  | disconnect (nsp : String)
  | event (nsp : String) (ackId : Option UInt64) (data : List Value)
  | ack (nsp : String) (ackId : UInt64) (data : List Value)
  | connectError (nsp : String) (data : Option Value)

/-- What is taken from libraries: the numbers a reader of JSON holds, its message for a text it refuses, and a string
as it is written for a developer. -/
structure Texts where
  range : Range
  jsonError : String → String
  debug : String → String

namespace EngineIoPacket

def encode : EngineIoPacket → String
  | .opened payload => "0" ++ payload
  | .close => "1"
  | .ping payload => "2" ++ payload
  | .pong payload => "3" ++ payload
  | .message payload => "4" ++ payload
  | .upgrade => "5"
  | .noop => "6"

def decode (texts : Texts) (raw : String) : Except CodecError EngineIoPacket :=
  match raw.toList with
  | [] => .error .emptyPacket
  | head :: tail =>
    let rest := String.ofList tail
    match head with
    | '0' => .ok (.opened rest)
    | '1' => .ok .close
    | '2' => .ok (.ping rest)
    | '3' => .ok (.pong rest)
    | '4' => .ok (.message rest)
    | '5' =>
      if rest ≠ "" then .error (.malformed ("upgrade packet must have no payload, got " ++ texts.debug rest))
      else .ok .upgrade
    | '6' =>
      if rest ≠ "" then .error (.malformed ("noop packet must have no payload, got " ++ texts.debug rest))
      else .ok .noop
    | other => .error (.unknownType other)

end EngineIoPacket

def encodePollingBatch (packets : List EngineIoPacket) : String :=
  packets.zipIdx.foldl (fun out entry => (if 0 < entry.2 then out.push recordSep else out) ++ entry.1.encode) ""

def decodePollingBatch (texts : Texts) (raw : String) : Except CodecError (List EngineIoPacket) :=
  if raw = "" then .ok []
  else (raw.toList.splitOn recordSep).mapM (fun part => EngineIoPacket.decode texts (String.ofList part))

def defaultNsp : String := "/"

namespace SocketIoPacket

def nsp : SocketIoPacket → String
  | .connect nsp _ | .disconnect nsp | .event nsp _ _ | .ack nsp _ _ | .connectError nsp _ => nsp

def typeCode : SocketIoPacket → Char
  | .connect .. => '0'
  | .disconnect .. => '1'
  | .event .. => '2'
  | .ack .. => '3'
  | .connectError .. => '4'

/-- The acknowledgment id that is written. -/
def ackIdText : SocketIoPacket → String
  | .event _ (some id) _ => toString id.toNat
  | .ack _ id _ => toString id.toNat
  | _ => ""

/-- The JSON that is written, of an event and an acknowledgment always an array. -/
def payload : SocketIoPacket → Option Value
  | .connect _ data | .connectError _ data => data
  | .event _ _ data | .ack _ _ data => some (.array data)
  | .disconnect _ => none

def encode (p : SocketIoPacket) : String :=
  p.typeCode.toString ++ (if p.nsp ≠ defaultNsp then p.nsp ++ "," else "") ++ p.ackIdText ++
    ((p.payload.map Value.text).getD "")

/-- A namespace up to the first comma, or all there is, and what is left. -/
def takeNamespace (rest : List Char) : String × List Char :=
  if rest.head? = some '/' then
    (String.ofList (rest.takeWhile (fun c => c != ',')), (rest.dropWhile (fun c => c != ',')).drop 1)
  else (defaultNsp, rest)

/-- The digits in front as an acknowledgment id, if it fits, and what is left. -/
def takeAckId (rest : List Char) : Option UInt64 × List Char :=
  let digits := rest.takeWhile Char.isDigit
  (if digits = [] then none else (parseU64 (String.ofList digits)).map UInt64.ofNat, rest.drop digits.length)

def readPayload (texts : Texts) (rest : List Char) : Except CodecError (Option Value) :=
  if rest = [] then .ok none
  else
    match Value.fromSlice texts.range (utf8Bytes (String.ofList rest)) with
    | some v => .ok (some v)
    | none => .error (.malformed ("invalid JSON in socket.io payload: " ++ texts.jsonError (String.ofList rest)))

/-- The packet of a type, from what was read behind it. -/
def assemble (typeCh : Char) (nsp : String) (ackId : Option UInt64) (data : Option Value) :
    Except CodecError SocketIoPacket :=
  match typeCh with
  | '0' => .ok (.connect nsp data)
  | '1' => .ok (.disconnect nsp)
  | '2' =>
    match data with
    | some (.array (item :: items)) => .ok (.event nsp ackId (item :: items))
    | some _ => .error (.malformed "socket.io EVENT payload must be a non-empty array")
    | none => .error (.malformed "socket.io EVENT requires a payload")
  | '3' => do
    let items ← match data with
      | some (.array items) => .ok items
      | some _ => .error (.malformed "socket.io ACK payload must be an array")
      | none => .ok []
    match ackId with
    | some id => .ok (.ack nsp id items)
    | none => .error (.malformed "socket.io ACK requires an ack id")
  | '4' => .ok (.connectError nsp data)
  | other => .error (.unknownType other)

def decode (texts : Texts) (raw : String) : Except CodecError SocketIoPacket :=
  match raw.toList with
  | [] => .error .emptyPacket
  | typeCh :: tail =>
    let (nsp, rest) := takeNamespace tail
    let (ackId, rest) := takeAckId rest
    (readPayload texts rest).bind (assemble typeCh nsp ackId)

/-- A packet whose wire form keeps what it is: the namespace ends where its comma is, an event has a name, and no
number stands where an acknowledgment id would. -/
structure Sendable (p : SocketIoPacket) : Prop where
  rooted : p.nsp.toList.head? = some '/'
  commaless : ',' ∉ p.nsp.toList
  unseparated : recordSep ∉ p.nsp.toList
  named : ∀ nsp ackId, p ≠ .event nsp ackId []
  numberless : ∀ digits, p.payload ≠ some (.number digits)

/-- The JSON of the packet is read back as it was. -/
def ReadsBack (texts : Texts) (p : SocketIoPacket) : Prop :=
  ∀ v, p.payload = some v → Value.fromSlice texts.range (utf8Bytes v.text) = some v

end SocketIoPacket

/-! The text of a value. -/

/-- The text of a value other than a number starts with neither a digit nor a slash. -/
theorem text_head {v : Value} (numberless : ∀ digits, v ≠ .number digits) :
    ∃ c rest, v.text.toList = c :: rest ∧ c.isDigit = false ∧ c ≠ '/' := by
  cases v with
  | null => exact ⟨'n', _, rfl, rfl, by decide⟩
  | bool b => cases b <;> exact ⟨_, _, rfl, rfl, by decide⟩
  | number digits => exact absurd rfl (numberless digits)
  | string s =>
    refine ⟨'"', (String.join (s.toList.map Value.escaped) ++ "\"").toList, ?_, rfl, by decide⟩
    rw [Value.text, Value.quoted, String.append_assoc, String.toList_append]
    rfl
  | array items =>
    refine ⟨'[', (Value.textItems items ++ "]").toList, ?_, rfl, by decide⟩
    rw [Value.text, String.append_assoc, String.toList_append]
    rfl
  | object fields =>
    refine ⟨'\x7b', (Value.textFields fields ++ "\x7d").toList, ?_, rfl, by decide⟩
    rw [Value.text, String.append_assoc, String.toList_append]
    rfl

theorem escaped_unseparated (c : Char) : recordSep ∉ (Value.escaped c).toList := by
  by_cases control : c.toNat < 0x20
  · have low : ∀ n < 0x20, recordSep ∉ (Value.escaped (Char.ofNat n)).toList := by decide
    rw [← Char.ofNat_toNat c]
    exact low _ control
  · have other : recordSep ≠ c := by
      rintro rfl
      exact control (by decide)
    unfold Value.escaped
    split <;> first | decide | skip
    rw [if_neg control]
    simpa using other

theorem quoted_unseparated (s : String) : recordSep ∉ (Value.quoted s).toList := by
  have joined (chars : List Char) : recordSep ∉ (String.join (chars.map Value.escaped)).toList := by
    induction chars with
    | nil => exact List.not_mem_nil
    | cons c rest ih =>
      rw [List.map_cons, String.join_cons, String.toList_append, List.mem_append, not_or]
      exact ⟨escaped_unseparated c, ih⟩
  simp only [Value.quoted, String.toList_append, List.mem_append, not_or]
  exact ⟨⟨by decide, joined _⟩, by decide⟩

theorem items_unseparated {items : List Value} (each : ∀ item ∈ items, recordSep ∉ item.text.toList) :
    recordSep ∉ (Value.textItems items).toList := by
  induction items with
  | nil => exact List.not_mem_nil
  | cons item rest ih =>
    have between : recordSep ∉ (if rest.isEmpty then "" else ",").toList := by split <;> decide
    simp only [Value.textItems, String.toList_append, List.mem_append, not_or]
    exact ⟨⟨each item List.mem_cons_self, between⟩, ih (fun item member => each item (List.mem_cons_of_mem _ member))⟩

theorem fields_unseparated {fields : List (String × Value)} (each : ∀ f ∈ fields, recordSep ∉ f.2.text.toList) :
    recordSep ∉ (Value.textFields fields).toList := by
  induction fields with
  | nil => exact List.not_mem_nil
  | cons f rest ih =>
    have between : recordSep ∉ (if rest.isEmpty then "" else ",").toList := by split <;> decide
    have own : recordSep ∉ (Value.textField f).toList := by
      rw [Value.textField]
      simp only [String.toList_append, List.mem_append, not_or]
      exact ⟨⟨quoted_unseparated f.1, by decide⟩, each f List.mem_cons_self⟩
    simp only [Value.textFields, String.toList_append, List.mem_append, not_or]
    exact ⟨⟨own, between⟩, ih (fun f member => each f (List.mem_cons_of_mem _ member))⟩

theorem number_unseparated {digits : String} (number : isNumber (utf8Bytes digits) = true) :
    recordSep ∉ digits.toList := by
  rw [← numberText_of_isNumber number, numberText, String.toList_ofList, List.mem_map]
  rintro ⟨b, member, same⟩
  have numeric := isNumber_numeric number b member
  have all : ∀ n < 128, isNumeric (UInt8.ofNat n) = true → Char.ofNat n ≠ recordSep := by decide
  refine all b.toNat (isNumeric_ascii numeric) ?_ same
  rwa [UInt8.ofNat_toNat]

/-- What can be read holds no record separator: in a string it is escaped. -/
theorem text_unseparated {range : Range} {n : Nat} {v : Value} (readable : Value.Readable range n v) :
    recordSep ∉ v.text.toList := by
  induction readable with
  | null => decide
  | @bool _ b => cases b <;> decide
  | number number held => exact number_unseparated number
  | string => exact quoted_unseparated _
  | array inside ih =>
    rw [Value.text]
    simp only [String.toList_append, List.mem_append, not_or]
    exact ⟨⟨by decide, items_unseparated ih⟩, by decide⟩
  | object ordered inside ih =>
    rw [Value.text]
    simp only [String.toList_append, List.mem_append, not_or]
    exact ⟨⟨by decide, fields_unseparated ih⟩, by decide⟩

/-! A Socket.IO packet. -/

namespace SocketIoPacket

/-- What stands behind the namespace is found whole, unless the namespace is not written and a slash comes first. -/
theorem takeNamespace_written {nsp : String} (rooted : nsp.toList.head? = some '/') (commaless : ',' ∉ nsp.toList)
    {rest : List Char} (clear : rest.head? ≠ some '/') :
    takeNamespace ((if nsp ≠ defaultNsp then nsp ++ "," else "").toList ++ rest) = (nsp, rest) := by
  by_cases plain : nsp = defaultNsp
  · subst plain
    rw [if_neg (not_not_intro rfl)]
    exact if_neg clear
  · have front : (nsp ++ ",").toList ++ rest = nsp.toList ++ ',' :: rest := by
      rw [String.toList_append, List.append_assoc]
      rfl
    have head : (nsp.toList ++ ',' :: rest).head? = some '/' := by
      rw [List.head?_append, rooted]
      rfl
    have inside : ∀ c ∈ nsp.toList, (c != ',') = true := by
      intro c member
      rw [bne_iff_ne]
      rintro rfl
      exact commaless member
    have taken : (nsp.toList ++ ',' :: rest).takeWhile (fun c => c != ',') = nsp.toList :=
      takeWhile_stop inside (by simp)
    have left : ((nsp.toList ++ ',' :: rest).dropWhile (fun c => c != ',')).drop 1 = rest := by
      rw [List.dropWhile_append_of_pos inside]
      simp
    rw [if_pos plain, front, takeNamespace, if_pos head, taken, left, String.ofList_toList]

theorem decimal_digits (n : Nat) : ∀ c ∈ (toString n).toList, c.isDigit = true := by
  intro c member
  rw [toList_toString] at member
  exact Nat.isDigit_of_mem_toDigits (by decide) (by decide) member

/-- An id in front of no digit is taken whole. -/
theorem takeAckId_written (id : UInt64) {rest : List Char} (clear : ∀ c ∈ rest.head?, c.isDigit = false) :
    takeAckId ((toString id.toNat).toList ++ rest) = (some id, rest) := by
  have taken := takeWhile_stop (decimal_digits id.toNat) clear
  have written : (toString id.toNat).toList ≠ [] := by
    rw [toList_toString]
    exact Nat.toDigits_ne_nil
  rw [takeAckId, taken]
  simp only [if_neg written, String.ofList_toList, parseU64_toString id.toNat_lt, Option.map_some, UInt64.ofNat_toNat,
    List.drop_left]

theorem takeAckId_none {rest : List Char} (clear : ∀ c ∈ rest.head?, c.isDigit = false) :
    takeAckId rest = (none, rest) := by
  have taken : rest.takeWhile Char.isDigit = [] := @takeWhile_stop Char Char.isDigit [] rest (List.forall_mem_nil _) clear
  rw [takeAckId, taken]
  rfl

/-- The id that is written, of the packets that have one. -/
def ackId : SocketIoPacket → Option UInt64
  | .event _ id _ => id
  | .ack _ id _ => some id
  | _ => none

theorem takeAckId_encoded (p : SocketIoPacket) {rest : List Char} (clear : ∀ c ∈ rest.head?, c.isDigit = false) :
    takeAckId (p.ackIdText.toList ++ rest) = (p.ackId, rest) := by
  cases p with
  | event nsp id data =>
    cases id with
    | none => exact takeAckId_none clear
    | some id => exact takeAckId_written id clear
  | ack nsp id data => exact takeAckId_written id clear
  | connect | disconnect | connectError => exact takeAckId_none clear

theorem ackIdText_digits (p : SocketIoPacket) : ∀ c ∈ p.ackIdText.toList, c.isDigit = true := by
  cases p with
  | event nsp id data =>
    cases id with
    | none => exact List.forall_mem_nil _
    | some id => exact decimal_digits id.toNat
  | ack nsp id data => exact decimal_digits id.toNat
  | connect | disconnect | connectError => exact List.forall_mem_nil _

def payloadText (p : SocketIoPacket) : String := (p.payload.map Value.text).getD ""

/-- What is behind the id starts with neither a digit nor a slash. -/
theorem payloadText_clear {p : SocketIoPacket} (sendable : p.Sendable) :
    ∀ c ∈ p.payloadText.toList.head?, c.isDigit = false ∧ c ≠ '/' := by
  rw [payloadText]
  cases carried : p.payload with
  | none => simp
  | some v =>
    have numberless : ∀ digits, v ≠ .number digits := by
      rintro digits rfl
      exact sendable.numberless digits carried
    obtain ⟨c, rest, text, clear⟩ := text_head numberless
    simp only [Option.map_some, Option.getD_some, text, List.head?_cons, Option.mem_some_iff]
    rintro d rfl
    exact clear

theorem readPayload_written {texts : Texts} {p : SocketIoPacket} (sendable : p.Sendable) (back : p.ReadsBack texts) :
    readPayload texts p.payloadText.toList = .ok p.payload := by
  rw [payloadText]
  cases carried : p.payload with
  | none => rfl
  | some v =>
    have numberless : ∀ digits, v ≠ .number digits := by
      rintro digits rfl
      exact sendable.numberless digits carried
    obtain ⟨c, rest, text, -⟩ := text_head numberless
    have written : v.text.toList ≠ [] := by
      rw [text]
      exact List.cons_ne_nil _ _
    simp only [readPayload, Option.map_some, Option.getD_some, if_neg written, String.ofList_toList, back v carried]

theorem assemble_written {p : SocketIoPacket} (sendable : p.Sendable) :
    assemble p.typeCode p.nsp p.ackId p.payload = .ok p := by
  cases p with
  | event nsp ackId data =>
    cases data with
    | nil => exact absurd rfl (sendable.named nsp ackId)
    | cons item items => rfl
  | connect | disconnect | ack | connectError => rfl

theorem encode_toList (p : SocketIoPacket) :
    p.encode.toList = p.typeCode ::
      ((if p.nsp ≠ defaultNsp then p.nsp ++ "," else "").toList ++ (p.ackIdText.toList ++ p.payloadText.toList)) := by
  simp [encode, payloadText]

/-- The split is recovered from the first characters of what was written. -/
theorem decode_encode {texts : Texts} {p : SocketIoPacket} (sendable : p.Sendable) (back : p.ReadsBack texts) :
    decode texts p.encode = .ok p := by
  have clear := payloadText_clear sendable
  have noSlash : (p.ackIdText.toList ++ p.payloadText.toList).head? ≠ some '/' := by
    intro slash
    rw [List.head?_append, Option.or_eq_some_iff] at slash
    rcases slash with id | ⟨-, json⟩
    · exact absurd (ackIdText_digits p '/' (List.mem_of_head? id)) (by decide)
    · exact (clear '/' json).2 rfl
  have spaced := takeNamespace_written sendable.rooted sendable.commaless noSlash
  have numbered := takeAckId_encoded p (fun c member => (clear c member).1)
  rw [decode, encode_toList]
  simp only [spaced, numbered, readPayload_written sendable back]
  exact assemble_written sendable

theorem payloadText_unseparated {texts : Texts} {p : SocketIoPacket} (back : p.ReadsBack texts) :
    recordSep ∉ p.payloadText.toList := by
  rw [payloadText]
  cases carried : p.payload with
  | none => exact List.not_mem_nil
  | some v => exact text_unseparated (Value.readable_of_fromSlice (back v carried))

theorem encode_unseparated {texts : Texts} {p : SocketIoPacket} (sendable : p.Sendable) (back : p.ReadsBack texts) :
    recordSep ∉ p.encode.toList := by
  have type : recordSep ≠ p.typeCode := by
    intro same
    have digit : p.typeCode.isDigit = true := by cases p <;> rfl
    exact absurd (same ▸ digit) (by decide)
  have spaced : recordSep ∉ (if p.nsp ≠ defaultNsp then p.nsp ++ "," else "").toList := by
    split
    · rw [String.toList_append, List.mem_append, not_or]
      exact ⟨sendable.unseparated, by decide⟩
    · exact List.not_mem_nil
  have numbered : recordSep ∉ p.ackIdText.toList := fun member =>
    absurd (ackIdText_digits p recordSep member) (by decide)
  rw [encode_toList, List.mem_cons, List.mem_append, List.mem_append]
  rintro (first | second | third | last)
  · exact type first
  · exact spaced second
  · exact numbered third
  · exact payloadText_unseparated back last

end SocketIoPacket

/-! A polling body. -/

namespace EngineIoPacket

/-- The text behind the type digit. -/
def payload : EngineIoPacket → String
  | .opened payload | .ping payload | .pong payload | .message payload => payload
  | .close | .upgrade | .noop => ""

def typeDigit : EngineIoPacket → Char
  | .opened _ => '0'
  | .close => '1'
  | .ping _ => '2'
  | .pong _ => '3'
  | .message _ => '4'
  | .upgrade => '5'
  | .noop => '6'

theorem encode_toList (p : EngineIoPacket) : p.encode.toList = p.typeDigit :: p.payload.toList := by
  cases p <;> simp [encode, payload, typeDigit]

theorem encode_separated (p : EngineIoPacket) : recordSep ∈ p.encode.toList ↔ recordSep ∈ p.payload.toList := by
  have other : recordSep ≠ p.typeDigit := by
    intro same
    have digit : p.typeDigit.isDigit = true := by cases p <;> rfl
    exact absurd (same ▸ digit) (by decide)
  rw [encode_toList, List.mem_cons, or_iff_right other]

theorem decode_encode (texts : Texts) (p : EngineIoPacket) : decode texts p.encode = .ok p := by
  cases p <;> simp [decode, encode]

end EngineIoPacket

theorem foldl_separated (ps : List EngineIoPacket) (out : String) (k : Nat) :
    ((ps.zipIdx (k + 1)).foldl
      (fun out entry => (if 0 < entry.2 then out.push recordSep else out) ++ entry.1.encode) out).toList =
      out.toList ++ ps.flatMap (fun p => recordSep :: p.encode.toList) := by
  induction ps generalizing out k with
  | nil => simp
  | cons p rest ih =>
    rw [List.zipIdx_cons, List.foldl_cons, ih]
    simp

theorem encodePollingBatch_toList (ps : List EngineIoPacket) :
    (encodePollingBatch ps).toList = [recordSep].intercalate (ps.map (fun p => p.encode.toList)) := by
  cases ps with
  | nil => rfl
  | cons p rest =>
    rw [encodePollingBatch, List.zipIdx_cons, List.foldl_cons, foldl_separated, List.map_cons, intercalate_cons,
      List.flatMap_map]
    simp

/-- A body is cut into the packets it was made of exactly when none of them holds the separator. -/
theorem decodePollingBatch_encode (texts : Texts) (ps : List EngineIoPacket) :
    decodePollingBatch texts (encodePollingBatch ps) = .ok ps ↔ ∀ p ∈ ps, recordSep ∉ p.payload.toList := by
  cases ps with
  | nil => exact iff_of_true rfl (List.forall_mem_nil _)
  | cons p rest =>
    have written : encodePollingBatch (p :: rest) ≠ "" := by
      intro empty
      have chars := encodePollingBatch_toList (p :: rest)
      rw [empty, List.map_cons, intercalate_cons, EngineIoPacket.encode_toList] at chars
      cases chars
    have parts : (p :: rest).map (fun p => p.encode.toList) ≠ [] := List.cons_ne_nil _ _
    rw [decodePollingBatch, if_neg written, encodePollingBatch_toList, splitOn_joined recordSep parts]
    constructor
    · intro read
      have counted := length_of_mapM read
      have whole := uncut_of_length (counted.symm.trans (List.length_map _).symm)
      intro q member
      rw [← q.encode_separated]
      exact whole _ (List.mem_map_of_mem member)
    · intro clear
      have uncut : ∀ part ∈ (p :: rest).map (fun p => p.encode.toList), recordSep ∉ part := by
        rw [List.forall_mem_map]
        intro q member
        rw [q.encode_separated]
        exact clear q member
      rw [← splitOn_joined recordSep parts, List.splitOn_intercalate recordSep uncut parts]
      refine mapM_back (fun q => ?_) (p :: rest)
      rw [String.ofList_toList]
      exact q.decode_encode texts

/-- A packet is read back from its text, no text of a packet holds the separator, and a polling body is read back
exactly when no payload other than a message's does. -/
theorem wire_round_trip (texts : Texts) :
    (∀ p : SocketIoPacket, p.Sendable → p.ReadsBack texts →
      SocketIoPacket.decode texts p.encode = .ok p ∧ recordSep ∉ p.encode.toList) ∧
    ∀ ps : List EngineIoPacket,
      (∀ text, .message text ∈ ps → ∃ p : SocketIoPacket, p.Sendable ∧ p.ReadsBack texts ∧ text = p.encode) →
      (decodePollingBatch texts (encodePollingBatch ps) = .ok ps ↔
        ∀ p ∈ ps, (∀ text, p ≠ .message text) → recordSep ∉ p.payload.toList) := by
  constructor
  · intro p sendable back
    exact ⟨SocketIoPacket.decode_encode sendable back, SocketIoPacket.encode_unseparated sendable back⟩
  · intro ps messages
    rw [decodePollingBatch_encode]
    constructor
    · intro clear p member _
      exact clear p member
    · intro clear p member
      cases p with
      | message text =>
        obtain ⟨q, sendable, back, rfl⟩ := messages text member
        exact SocketIoPacket.encode_unseparated sendable back
      | opened | close | ping | pong | upgrade | noop =>
        apply clear _ member
        intro text same
        cases same

def plainTexts : Texts := ⟨everyNumber, fun text => text, fun text => text⟩

def namedEvent : SocketIoPacket := .event "/admin" (some 13) [.string "foo"]

theorem namedEvent_sendable : namedEvent.Sendable where
  rooted := by decide
  commaless := by decide
  unseparated := by decide
  named := fun _ _ same => nomatch same
  numberless := fun _ same => nomatch same

theorem namedEvent_readsBack : namedEvent.ReadsBack plainTexts := by
  intro v carried
  cases carried
  exact Value.fromSlice_text (.array (List.forall_mem_singleton.mpr .string))

theorem namedEvent_delivered :
    SocketIoPacket.decode plainTexts namedEvent.encode = .ok namedEvent ∧
      decodePollingBatch plainTexts (encodePollingBatch [.ping "probe", .message namedEvent.encode]) =
        .ok [.ping "probe", .message namedEvent.encode] := by
  refine ⟨((wire_round_trip plainTexts).1 _ namedEvent_sendable namedEvent_readsBack).1,
    ((wire_round_trip plainTexts).2 _ ?_).mpr ?_⟩
  · simp only [List.mem_cons, List.not_mem_nil, or_false]
    rintro text (ping | message)
    · cases ping
    · cases message
      exact ⟨namedEvent, namedEvent_sendable, namedEvent_readsBack, rfl⟩
  · simp only [List.forall_mem_cons]
    exact ⟨fun _ => by decide, fun other => absurd rfl (other _), List.forall_mem_nil _⟩

/-- A ping's payload is its sender's, and one that is the separator is cut off. -/
theorem separatedPing_lost :
    ¬ ∀ (texts : Texts) (ps : List EngineIoPacket),
      (∀ text, .message text ∈ ps → ∃ p : SocketIoPacket, p.Sendable ∧ p.ReadsBack texts ∧ text = p.encode) →
      decodePollingBatch texts (encodePollingBatch ps) = .ok ps := by
  intro all
  have read := all plainTexts [.ping "\x1e"] (by simp)
  revert read
  decide

end MessageRelay.Session.Codec
