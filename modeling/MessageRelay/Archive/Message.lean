import Mathlib

/-! The queue message between a recipient's hub and the archive: one change of one mailbox row,
with the length of its JSON text and the checks the consumer makes when it reads one. -/

namespace MessageRelay.Archive

/-- The two changes of a row the archive receives. -/
inductive Change where
  | insert
  | acknowledge
  deriving DecidableEq, Repr

/-- One change of one row. Versions are 64-bit in the source. They reach the consumer as JavaScript
numbers, and one that is not a safe integer is refused as malformed, so they are plain numbers here. -/
structure ArchiveMessage where
  recipient : String
  messageId : String
  version : Nat
  change : Change
  messageBox : String
  sender : String
  body : Option String
  createdAt : Option String
  bodyInHub : Bool
  deriving DecidableEq, Repr

/-- Bytes of one character in a JSON string, as serde_json escapes it. -/
def escapedLength (c : Char) : Nat :=
  if c.toNat ∈ [0x08, 0x09, 0x0a, 0x0c, 0x0d, 0x22, 0x5c] then 2
  else if c.toNat < 0x20 then 6
  else c.utf8Size

def jsonString (s : String) : Nat := 2 + (s.toList.map escapedLength).sum

def jsonOption (s : Option String) : Nat := s.elim 4 jsonString

/-- A field's name, its quotes and its colon, and its value. -/
def jsonField (name : String) (value : Nat) : Nat := name.length + 3 + value

/-- Bytes of the message's JSON text. The flag is skipped while it is false. -/
def ArchiveMessage.jsonLength (m : ArchiveMessage) : Nat :=
  let fields := [jsonField "recipient" (jsonString m.recipient), jsonField "messageId" (jsonString m.messageId),
    jsonField "version" (toString m.version).length,
    jsonField "change" (match m.change with | .insert => 8 | .acknowledge => 13),
    jsonField "messageBox" (jsonString m.messageBox), jsonField "sender" (jsonString m.sender),
    jsonField "body" (jsonOption m.body), jsonField "createdAt" (jsonOption m.createdAt)] ++
    (if m.bodyInHub then [jsonField "bodyInHub" 4] else [])
  2 + fields.sum + (fields.length - 1)

/-- The checks made on a message once its fields are read. An error is beyond repair. -/
def parse (m : ArchiveMessage) : Except String ArchiveMessage :=
  if m.version = 0 then .error "version 0"
  else if m.recipient = "" then .error "empty recipient"
  else if m.messageId = "" then .error "empty messageId"
  else if m.messageBox = "" then .error "empty messageBox"
  else if m.sender = "" then .error "empty sender"
  else if m.change = .insert ∧ m.body = none ∧ m.bodyInHub = false then
    .error "an insert without its body"
  else .ok m

end MessageRelay.Archive
