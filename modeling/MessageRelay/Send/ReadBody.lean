import MessageRelay.Library.JsonCells
import MessageRelay.Payments.Routing
import MessageRelay.Send.JsonValue

/-! The body of a send read so that no `payment.tx` is ever a value a byte: a scan of the text finds every `tx` of a
`payment`, each that is an array is written over in the text, and what comes of it is parsed. A position in the text is
the text from there on. -/

namespace MessageRelay.Send
open MessageRelay.Lane MessageRelay.Library MessageRelay.Library.Json MessageRelay.Session MessageRelay.Payments

def sendBodyBytes : Nat := 12 * 1024 * 1024

def bodyTooLarge (bytes : Nat) : Answer :=
  errorAnswer "ERR_BODY_TOO_LARGE" ("The send is " ++ toString bytes ++ " bytes and the relay reads at most " ++
    toString sendBodyBytes ++ " in one request. Upload the payment's BEEF (/beef/upload-url) and send its key " ++
    "(payment.beefR2Key): an upload has no bound.") 413

def invalidJson : Answer := errorAnswer "ERR_INVALID_JSON" "Invalid JSON body" 400

def skipWs : Text → Text
  | [] => []
  | b :: rest => if b = 0x20 || b = 0x09 || b = 0x0a || b = 0x0d then skipWs rest else b :: rest

/-- Past the closing quote of the string the text is inside of. -/
def skipQuoted : Text → Option Text
  | [] => none
  | b :: rest =>
    if b = backslash then
      match rest with
      | [] => none
      | _ :: rest => skipQuoted rest
    else if b = quote then some rest
    else skipQuoted rest

def skipString : Text → Option Text
  | [] => none
  | b :: rest => if b = quote then skipQuoted rest else none

theorem skipQuoted_length {text rest : Text} (skipped : skipQuoted text = some rest) : rest.length < text.length := by
  induction text using skipQuoted.induct with
  | case1 => cases skipped
  | case2 => simp [skipQuoted.eq_def] at skipped
  | case3 e more ih =>
    rw [skipQuoted.eq_def] at skipped
    have shorter := ih skipped
    simp only [List.length_cons]
    omega
  | case4 more plain =>
    rw [skipQuoted.eq_def] at skipped
    simp only [if_neg plain, if_true, Option.some.injEq] at skipped
    simp [skipped]
  | case5 b more plain inside ih =>
    rw [skipQuoted.eq_def] at skipped
    simp only [if_neg plain, if_neg inside] at skipped
    have shorter := ih skipped
    simp only [List.length_cons]
    omega

/-- Past the bracket that closes the ones counted. -/
def skipNested (depth : Nat) (text : Text) : Option Text :=
  match text with
  | [] => none
  | b :: rest =>
    if b = quote then
      match _skipped : skipQuoted rest with
      | none => none
      | some rest => skipNested depth rest
    else if b = openObject || b = openArray then skipNested (depth + 1) rest
    else if b = closeObject || b = closeArray then
      if depth - 1 = 0 then some rest else skipNested (depth - 1) rest
    else skipNested depth rest
termination_by text.length
decreasing_by
  · exact Nat.lt_succ_of_lt (skipQuoted_length _skipped)
  all_goals simp

/-- What a scalar runs up to. -/
def endsScalar (b : UInt8) : Bool :=
  b = comma || b = closeObject || b = closeArray || b = 0x20 || b = 0x09 || b = 0x0a || b = 0x0d

def skipValue : Text → Option Text
  | [] => none
  | b :: rest =>
    if b = quote then skipString (b :: rest)
    else if b = openObject || b = openArray then skipNested 0 (b :: rest)
    else if endsScalar b then none
    else some (rest.dropWhile (fun c => !endsScalar c))

/-- The text from one position to a later one. -/
def slice (start stop : Text) : Text := start.take (start.length - stop.length)

/-- `serde_json::from_slice::<String>`. -/
def parseKey (text : Text) : Option String :=
  match readString (skipSpace text) with
  | none => none
  | some (key, rest) => if skipSpace rest = [] then some key else none

/-- A member as the scan hands it on: its key, where its value begins, and where it ends. -/
structure Member where
  key : String
  value : Text
  stop : Text
  deriving DecidableEq, Repr

/-- The members handed on from the first key, and the end of the object where the scan reaches it. -/
def membersFrom : Nat → Text → List Member × Option Text
  | 0, _ => ([], none)
  | fuel + 1, text =>
    match skipString text with
    | none => ([], none)
    | some keyEnd =>
      match parseKey (slice text keyEnd), skipWs keyEnd with
      | some key, b :: rest =>
        if b = colon then
          match skipValue (skipWs rest) with
          | none => ([], none)
          | some stop =>
            match skipWs stop with
            | [] => ([⟨key, skipWs rest, stop⟩], none)
            | c :: more =>
              if c = comma then
                let (later, ended) := membersFrom fuel (skipWs more)
                (⟨key, skipWs rest, stop⟩ :: later, ended)
              else if c = closeObject then ([⟨key, skipWs rest, stop⟩], some more)
              else ([⟨key, skipWs rest, stop⟩], none)
        else ([], none)
      | _, _ => ([], none)

def members : Text → List Member × Option Text
  | [] => ([], none)
  | b :: rest =>
    if b = openObject then
      match skipWs rest with
      | [] => ([], none)
      | c :: more => if c = closeObject then ([], some more) else membersFrom (c :: more).length (c :: more)
    else ([], none)

/-- A value's text in a body: where it begins and where it ends. -/
abbrev Span := Text × Text

/-- The `tx` members of one `payment`. -/
def txOf (m : Member) : List Span :=
  if m.key = "payment" ∧ m.value.head? = some openObject then
    (members m.value).1.filterMap (fun t => if t.key = "tx" then some (t.value, t.stop) else none)
  else []

def txSpans (raw : Text) : List Span := (members (skipWs raw)).1.flatMap txOf

def decimalFrom (n : Nat) (digits : Text) : Nat := digits.foldl (fun n d => n * 10 + (d.toNat - 0x30)) n

/-- The integer at the front of the text, when it is a byte. -/
def readByte (text : Text) : Option (UInt8 × Text) :=
  let digits := text.takeWhile isDigit
  let n := decimalFrom 0 digits
  if 3 < digits.length ∨ digits = [] ∨ (digits.head? = some 0x30 ∧ 1 < digits.length) ∨ 255 < n then none
  else some (UInt8.ofNat n, text.dropWhile isDigit)

def bytesFrom : Nat → Text → Option Bytes
  | 0, _ => none
  | fuel + 1, text =>
    match readByte text with
    | none => none
    | some (byte, rest) =>
      match skipWs rest with
      | [] => none
      | b :: rest =>
        if b = comma then (bytesFrom fuel (skipWs rest)).map (byte :: ·)
        else if b = closeArray then if skipWs rest = [] then some [byte] else none
        else none

/-- The bytes of an array of integers 0 to 255, read from its text. -/
def arrayBytes (text : Text) : Option Bytes :=
  match skipWs (text.drop 1) with
  | [] => none
  | b :: rest =>
    if b = closeArray then if skipWs rest = [] then some [] else none
    else bytesFrom (b :: rest).length (b :: rest)

def isArraySpan (span : Span) : Bool := span.1.head? = some openArray

/-- What is written for a `tx`: the bytes of an array as hex, false for an array of anything else. -/
def writtenTx (text : Text) : Text :=
  if text.head? = some openArray then
    match arrayBytes text with
    | some bytes => quote :: (utf8Bytes (hexEncode bytes) ++ [quote])
    | none => boolText false
  else text

/-- The text from a position on, with the spans written over. -/
def rewritten : List Span → Text → Text
  | [], text => text
  | (start, stop) :: rest, text => slice text start ++ (writtenTx (slice start stop) ++ rewritten rest stop)

/-- One member of an object changed where it stands. -/
def modifyField (name : String) (f : Value → Value) (fields : List (String × Value)) : List (String × Value) :=
  fields.map (fun m => if m.1 = name then (m.1, f m.2) else m)

/-- The payment without the sender's `txShape`, and with the relay's when its `tx` was read as bytes. -/
def shaped (sentAsArray : Bool) : Value → Value
  | .object fields =>
    let fields := fields.filter (fun m => m.1 ≠ "txShape")
    if sentAsArray && (((Value.object fields).get "tx").bind Value.asStr).isSome then
      .object (Value.insertField "txShape" (.string "array") fields)
    else .object fields
  | v => v

def shapedBody (sentAsArray : Bool) : Value → Value
  | .object fields => .object (modifyField "payment" (shaped sentAsArray) fields)
  | v => v

def readSendBody (range : Range) (raw : Text) : Except Answer Value :=
  if sendBodyBytes < raw.length then .error (bodyTooLarge raw.length)
  else
    let spans := txSpans raw
    if spans.any isArraySpan then
      match Value.fromSlice range (rewritten spans raw) with
      | none => .error invalidJson
      | some body => .ok (shapedBody (spans.getLast?.any isArraySpan) body)
    else
      match Value.fromSlice range raw with
      | none => .error invalidJson
      | some body => .ok (shapedBody false body)

/-- An item that is an integer 0 to 255. -/
def byteOf (v : Value) : Option UInt8 := (asU64 v).bind (fun n => if n ≤ 255 then some (UInt8.ofNat n) else none)

/-- A `tx` as it is handed on: an array of bytes is their hex, any other array is false. -/
def handedTx : Value → Value
  | .array items =>
    match items.mapM byteOf with
    | some bytes => .string (hexEncode bytes)
    | none => .bool false
  | v => v

def sentAsBytes : Option Value → Bool
  | some (.array items) => (items.mapM byteOf).isSome
  | _ => false

/-- A payment as it is handed on: no `txShape` but the relay's, and no `tx` that is an array. -/
def handedPayment : Value → Value
  | .object fields =>
    let fields' := modifyField "tx" handedTx (fields.filter (fun m => m.1 ≠ "txShape"))
    .object (if sentAsBytes ((Value.object fields).get "tx") then
      Value.insertField "txShape" (.string "array") fields' else fields')
  | v => v

/-- A send's body as it is handed on. -/
def handed : Value → Value
  | .object fields => .object (modifyField "payment" handedPayment fields)
  | v => v

end MessageRelay.Send
