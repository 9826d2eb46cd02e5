import MessageRelay.Library.Joined
import MessageRelay.Send.Inserts
import MessageRelay.Session.Engine

/-! The live leg of a send, over WebSocket or socket.io: the checks of the event, the shared write path, and the
events its outcome turns into. A duplicate is acknowledged like a stored row. -/

namespace MessageRelay.Send
open MessageRelay.Library MessageRelay.Session

structure ClientSendMessage where
  messageId : String
  recipient : String
  body : Value

def hexadecimal (c : Char) : Bool :=
  ('0' ≤ c && c ≤ '9') || ('a' ≤ c && c ≤ 'f') || ('A' ≤ c && c ≤ 'F')

/-- A compressed public key in hex. -/
def isValidPubkey (s : String) : Bool :=
  s.utf8ByteSize = 66 && (['0', '2'].isPrefixOf s.toList || ['0', '3'].isPrefixOf s.toList) &&
    (s.toList.drop 2).all hexadecimal

def eventsBox : String := "low_events"

def isFirstPartyBox (name : String) : Bool := name = eventsBox || "broadcast-".toList.isPrefixOf name.toList

def stripRoom (owner room : String) : Option String :=
  if (owner ++ "-").toList.isPrefixOf room.toList then
    some (String.ofList (room.toList.drop (owner ++ "-").length))
  else none

def messageFailed (reason : String) : OutboundEvent := ⟨"messageFailed", .object [("reason", .string reason)]⟩

/-- The body is neither null nor the empty string. -/
def hasBody : Value → Bool
  | .null => false
  | .string s => s ≠ ""
  | _ => true

/-- The event's checks. The box is what follows the recipient's key in the room's name, or the sender's. -/
def validateWsSend (sender room : String) (message : ClientSendMessage) (payment : Option Value) :
    Except OutboundEvent ValidatedSendMessage :=
  if room.toList.all whiteSpace then .error (messageFailed "Invalid room ID")
  else if !isValidPubkey message.recipient then
    .error (messageFailed ("Invalid recipient key: " ++ message.recipient))
  else
    match ((stripRoom message.recipient room).or (stripRoom sender room)).filter (· ≠ "") with
    | none => .error (messageFailed "Room ID must be the sender's or recipient's room (\"<id>-<box>\")")
    | some messageBox =>
      if isFirstPartyBox messageBox then
        .error ⟨"messageFailed", .object [("code", .string "ERR_FIRST_PARTY_BOX"), ("reason", .string
          ("message box '" ++ messageBox ++ "' is first-party: only the service push may write it"))]⟩
      else if message.messageId = "" then .error (messageFailed "Each messageId must be a non-empty string.")
      else if !hasBody message.body then .error (messageFailed "Invalid message body.")
      else .ok ⟨[(message.recipient, message.messageId)], messageBox, message.body, payment⟩

def descriptionOr (body : Value) (default : String) : String :=
  ((body.get "description").bind Value.asStr).getD default

def sendMessageAck (room messageId : String) (duplicate : Bool) : OutboundEvent :=
  ⟨"sendMessageAck", .object ((if duplicate then [("duplicate", .bool true)] else []) ++
    [("messageId", .string messageId), ("roomId", .string room), ("status", .string "success")])⟩

def outcomeToOutbound (room : String) : SendOutcome → List OutboundEvent
  | .success results => results.map (fun r => sendMessageAck room r.messageId false)
  | .validationError answer => [messageFailed (descriptionOr answer.body "validation error")]
  | .blockedRecipients list => [messageFailed ("Blocked recipients: " ++ ", ".intercalate list)]
  | .paymentFailed answer =>
    [⟨"paymentFailed", .object [("reason", .string (descriptionOr answer.body "payment failed"))]⟩]
  | .duplicateMessage _ messageId => [sendMessageAck room messageId true]
  | .internalError detail => [messageFailed ("An internal error has occurred: " ++ detail)]
  | .transientError detail =>
    [⟨"messageFailed", .object [("reason", .string
      ("The relay is momentarily unavailable; please retry: " ++ detail)), ("retryable", .bool true)]⟩]

def processSendMessage (path : StorePath) (weather : Weather) (sender room : String) (message : ClientSendMessage)
    (payment : Option Value) (w : World) : List OutboundEvent × AfterAnswer × World :=
  match validateWsSend sender room message payment with
  | .error refused => ([refused], ⟨[], []⟩, w)
  | .ok validated =>
    let out := processSend path weather validated sender w
    (outcomeToOutbound room out.1, out.2.1, out.2.2)

end MessageRelay.Send
