import MessageRelay.Archive.Message
import MessageRelay.Payments.Routing
import MessageRelay.Send.JsonValue

/-! The queue message as JSON text, and the consumer's reading of that text. -/

namespace MessageRelay.Payments
open MessageRelay.Library.Json MessageRelay.Session

theorem asU64_toString {n : Nat} (bound : n < 2 ^ 64) : asU64 (.number (toString n)) = some n := by
  have digits : (toString n).toList.foldl (fun n c => 10 * n + (c.toNat - 48)) 0 = n := by
    rw [toList_toString]
    exact Nat.ofDigitChars_ten_toDigits
  have decimal : (toString n).toList.all Char.isDigit = true := by
    rw [toList_toString, List.all_eq_true]
    exact fun c member => Nat.isDigit_of_mem_toDigits (by decide) (by decide) member
  have some' : toString n ≠ "" := by
    intro empty
    have none' := congrArg String.toList empty
    rw [toList_toString] at none'
    exact Nat.toDigits_ne_nil none'
  simp only [asU64, digits]
  rw [if_pos ⟨some', decimal, bound⟩]

end MessageRelay.Payments

namespace MessageRelay.Archive
open MessageRelay.Library.Json MessageRelay.Session MessageRelay.Payments

def Change.name : Change → String
  | .insert => "insert"
  | .acknowledge => "acknowledge"

/-- A variant is its name, or an object of that one name and null. -/
def Change.fromValue : Value → Option Change
  | .string name => [Change.insert, .acknowledge].find? (fun change => change.name = name)
  | .object [(name, .null)] => [Change.insert, .acknowledge].find? (fun change => change.name = name)
  | _ => none

namespace ArchiveMessage

def fieldNames : List String :=
  ["recipient", "messageId", "version", "change", "messageBox", "sender", "body", "createdAt", "bodyInHub"]

/-- The message's members as they are written, in the order of its fields. -/
def fields (m : ArchiveMessage) : List (String × Value) :=
  [("recipient", .string m.recipient), ("messageId", .string m.messageId), ("version", .number (toString m.version)),
    ("change", .string m.change.name), ("messageBox", .string m.messageBox), ("sender", .string m.sender),
    ("body", m.body.elim .null .string), ("createdAt", m.createdAt.elim .null .string)] ++
  (if m.bodyInHub then [("bodyInHub", .bool true)] else [])

/-- `serde_json::to_string`. -/
def text (m : ArchiveMessage) : String := (Value.object m.fields).text

def optionalString : Option Value → Option (Option String)
  | none | some .null => some none
  | some (.string s) => some (some s)
  | some _ => none

def defaultBool : Option Value → Option Bool
  | none => some false
  | some (.bool b) => some b
  | some _ => none

def fromMap (v : Value) : Option ArchiveMessage := do
  let recipient ← (v.get "recipient").bind Value.asStr
  let messageId ← (v.get "messageId").bind Value.asStr
  let version ← (v.get "version").bind asU64
  let change ← (v.get "change").bind Change.fromValue
  let messageBox ← (v.get "messageBox").bind Value.asStr
  let sender ← (v.get "sender").bind Value.asStr
  let body ← optionalString (v.get "body")
  let createdAt ← optionalString (v.get "createdAt")
  let bodyInHub ← defaultBool (v.get "bodyInHub")
  return { recipient, messageId, version, change, messageBox, sender, body, createdAt, bodyInHub }

/-- `serde_json::from_value`. An array is read as the fields in their order. -/
def fromValue : Value → Option ArchiveMessage
  | .object fields => fromMap (.object fields)
  | .array items => if items.length ≤ fieldNames.length then fromMap (.object (fieldNames.zip items)) else none
  | _ => none

end ArchiveMessage

/-- One queue message's body read. Why its fields are none of a message's is left out. -/
def parseValue (v : Value) : Except String ArchiveMessage :=
  match ArchiveMessage.fromValue v with
  | none => .error "not an archive message"
  | some m => parse m

theorem length_escaped (c : Char) : (Value.escaped c).utf8ByteSize = escapedLength c := by
  by_cases ascii : c.toNat < 0x80
  · have low : ∀ n < 0x80, (Value.escaped (Char.ofNat n)).utf8ByteSize = escapedLength (Char.ofNat n) := by
      decide
    have whole := low _ ascii
    rwa [Char.ofNat_toNat] at whole
  · have same : Value.escaped c = c.toString := by
      unfold Value.escaped
      split <;> first | omega | exact if_neg (by omega)
    have plain : c.toNat ∉ [0x08, 0x09, 0x0a, 0x0c, 0x0d, 0x22, 0x5c] := by
      simp only [List.mem_cons, List.not_mem_nil, or_false]
      omega
    rw [same, escapedLength, if_neg plain, if_neg (by omega), ← utf8Bytes_length,
      show c.toString = String.ofList [c] from rfl, utf8Bytes_ofList]
    simp

theorem length_quoted (s : String) : (Value.quoted s).utf8ByteSize = jsonString s := by
  have joined (chars : List Char) :
      (String.join (chars.map Value.escaped)).utf8ByteSize = (chars.map escapedLength).sum := by
    induction chars with
    | nil => rfl
    | cons c rest ih =>
      rw [List.map_cons, String.join_cons, String.utf8ByteSize_append, ih, length_escaped, List.map_cons, List.sum_cons]
  rw [Value.quoted, String.utf8ByteSize_append, String.utf8ByteSize_append, joined, jsonString]
  have mark : ("\"" : String).utf8ByteSize = 1 := rfl
  omega

theorem length_textFields (fields : List (String × Value)) : (Value.textFields fields).utf8ByteSize =
    (fields.map (fun f => jsonString f.1 + 1 + f.2.text.utf8ByteSize)).sum + (fields.length - 1) := by
  induction fields with
  | nil => rfl
  | cons f rest ih =>
    have mark : (":" : String).utf8ByteSize = 1 := rfl
    have comma : ("," : String).utf8ByteSize = 1 := rfl
    have empty : ("" : String).utf8ByteSize = 0 := rfl
    rw [Value.textFields, String.utf8ByteSize_append, String.utf8ByteSize_append, ih, Value.textField,
      String.utf8ByteSize_append, String.utf8ByteSize_append, length_quoted, List.map_cons, List.sum_cons, mark]
    cases rest with
    | nil =>
      simp only [List.isEmpty_nil, if_true, empty, List.length_cons, List.length_nil]
      omega
    | cons g more =>
      simp only [List.isEmpty_cons, Bool.false_eq_true, if_false, comma, List.length_cons]
      omega

namespace ArchiveMessage

/-- The text is as long as the relay counts it. -/
theorem length_text (m : ArchiveMessage) : m.text.utf8ByteSize = m.jsonLength := by
  have opened : ("\x7b" : String).utf8ByteSize = 1 := rfl
  have closed : ("\x7d" : String).utf8ByteSize = 1 := rfl
  have option (s : Option String) : (s.elim Value.null Value.string).text.utf8ByteSize = jsonOption s := by
    cases s with
    | none => rfl
    | some s => exact length_quoted s
  have digits : (toString m.version).utf8ByteSize = (toString m.version).length := by
    have ascii := utf8Bytes_ascii (s := toString m.version) (fun _ member =>
      Nat.lt_of_le_of_lt (toString_digit member).2 (by decide))
    rw [← utf8Bytes_length, ascii, List.length_map, String.length_toList]
  have insert : jsonString Change.insert.name = 8 := rfl
  have acknowledge : jsonString Change.acknowledge.name = 13 := rfl
  have named : ∀ name ∈ fieldNames, jsonString name = name.length + 2 := by decide
  simp only [fieldNames, List.forall_mem_cons] at named
  obtain ⟨n1, n2, n3, n4, n5, n6, n7, n8, n9, -⟩ := named
  have string (s : String) : (Value.string s).text.utf8ByteSize = jsonString s := length_quoted s
  have number : (Value.number (toString m.version)).text = toString m.version := rfl
  have flag : (Value.bool true).text.utf8ByteSize = 4 := rfl
  rw [text, Value.text, String.utf8ByteSize_append, String.utf8ByteSize_append, length_textFields, opened, closed]
  cases change : m.change <;> cases hub : m.bodyInHub <;>
  · simp only [fields, jsonLength, jsonField, List.map_append, List.map_cons, List.map_nil, List.sum_append,
      List.sum_cons, List.sum_nil, List.length_append, List.length_cons, List.length_nil, n1, n2, n3, n4, n5, n6, n7,
      n8, n9, string, number, option, digits, change, insert, acknowledge, hub, Bool.false_eq_true, if_false, if_true,
      flag]
    omega

theorem fromValue_fields {m : ArchiveMessage} (counted : m.version < 2 ^ 64) :
    fromValue (.object (Value.collect m.fields)) = some m := by
  have version := asU64_toString counted
  have change : Change.fromValue (.string m.change.name) = some m.change := by
    cases m.change <;> rfl
  have body (s : Option String) : optionalString (some (s.elim Value.null Value.string)) = some s := by
    cases s <;> rfl
  have flag : (Value.object (Value.collect m.fields)).get "bodyInHub" =
      if m.bodyInHub then some (.bool true) else none := by
    rw [Value.get_collect, fields]
    cases m.bodyInHub <;> simp
  have flagged : defaultBool (if m.bodyInHub then some (.bool true) else none) = some m.bodyInHub := by
    cases m.bodyInHub <;> rfl
  have field (name : String) (value : Value) (other : name ≠ "bodyInHub")
      (found : (m.fields.take 8).reverse.find? (fun f => f.1 == name) = some (name, value)) :
      (Value.object (Value.collect m.fields)).get name = some value := by
    rw [Value.get_collect, ← List.take_append_drop 8 m.fields, List.reverse_append, List.find?_append, found]
    have absent : (m.fields.drop 8).reverse.find? (fun f => f.1 == name) = none := by
      cases hub : m.bodyInHub <;> simp [fields, hub, other.symm]
    rw [absent]
    rfl
  have r := field "recipient" (.string m.recipient) (by decide) (by simp [fields])
  have i := field "messageId" (.string m.messageId) (by decide) (by simp [fields])
  have v := field "version" (.number (toString m.version)) (by decide) (by simp [fields])
  have c := field "change" (.string m.change.name) (by decide) (by simp [fields])
  have b := field "messageBox" (.string m.messageBox) (by decide) (by simp [fields])
  have s := field "sender" (.string m.sender) (by decide) (by simp [fields])
  have t := field "body" (m.body.elim .null .string) (by decide) (by simp [fields])
  have a := field "createdAt" (m.createdAt.elim .null .string) (by decide) (by simp [fields])
  simp only [fromValue, fromMap, r, i, v, c, b, s, t, a, flag, flagged, version, change, body, Option.bind_some,
    Value.asStr, Option.bind_eq_bind, Option.pure_def]

/-- The consumer reads the message it was sent. -/
theorem fromSlice_text {m : ArchiveMessage} (counted : m.version < 2 ^ 64) (range : Range) :
    Value.fromSlice range (utf8Bytes m.text) = some (.object (Value.collect m.fields)) := by
  have option (s : Option String) : Value.Writable range 126 (s.elim .null .string) := by
    cases s <;> constructor
  have flag : ∀ f ∈ (if m.bodyInHub then [("bodyInHub", Value.bool true)] else []), Value.Writable range 126 f.2 := by
    cases m.bodyInHub
    · simp
    · simp only [if_true, List.forall_mem_singleton]
      exact .bool
  have writable : ∀ f ∈ m.fields, Value.Writable range 126 f.2 := by
    simp only [fields, List.forall_mem_append, List.forall_mem_cons]
    exact ⟨⟨.string, .string, .natural range counted, .string, .string, .string, option _, option _, nofun⟩, flag⟩
  exact Value.fromSlice_members writable

end ArchiveMessage

end MessageRelay.Archive
