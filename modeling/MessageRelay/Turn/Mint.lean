import MessageRelay.Library.Machine
import MessageRelay.Send.JsonValue
import MessageRelay.Turn.Budget
import MessageRelay.Turn.IceServers

/-! The mint of TURN credentials and their revocation, over a database any of whose statements may fail, with or
without its change made, and a provider that answers as it likes. -/

namespace MessageRelay.Turn
open MessageRelay.Library MessageRelay.Library.Json MessageRelay.Session
open MessageRelay.Send (Answer errorAnswer)

/-- The deployment's switch, its ttl in seconds and its bounds. -/
structure Deployment where
  on : Bool
  ttlSecs : UInt64
  budgets : Config

structure CredentialRow where
  username : String
  identityKey : String
  expiresAt : Int
  createdAt : Int
  deriving DecidableEq, Repr

/-- The table `turn_credentials`. -/
abbrev Credentials := Table CredentialRow.username

structure TurnStore where
  budgets : Budgets
  credentials : Credentials

/-- A statement that failed. Its change may have been made. -/
structure Fault where
  landed : Bool
  error : String

/-- A statement as the database runs it: the error, if any, and what it left. -/
def attempt {σ : Type} (fault : Option Fault) (change : σ → σ) (s : σ) : Option String × σ :=
  match fault with
  | none => (none, change s)
  | some f => (some f.error, if f.landed then change s else s)

/-- What a call does beside its answer and the store. -/
inductive Effect where
  | audit (line : String)
  /-- The provider is asked for credentials. -/
  | generated
  /-- The provider is asked to revoke a username. -/
  | asked (username : String)
  deriving DecidableEq, Repr

structure Outcome where
  answer : Answer
  store : TurnStore
  effects : List Effect

def switchedOff : Answer :=
  errorAnswer "ERR_TURN_OFF" "This relay does not mint TURN credentials (TURN_CREDENTIALS is not \"on\")." 403

def misconfigured : Answer := errorAnswer "ERR_SERVER_MISCONFIGURED" "The relay's TURN key is not configured." 503

def unavailable (description : String) : Answer := errorAnswer "ERR_TURN_UNAVAILABLE" description 503

/-- `u8::is_ascii_whitespace`. -/
def isAsciiWhitespace (b : UInt8) : Bool := b = 0x20 || b = 0x09 || b = 0x0a || b = 0x0c || b = 0x0d

/-- The refusal of a body that is neither empty nor an object, or names another identity. -/
def callerRule (range : Range) (body : Text) (identity : String) : Option Answer :=
  if body.all isAsciiWhitespace then none
  else
    match Value.fromSlice range body with
    | some (.object fields) =>
      match (Value.object fields).get "identityKey" with
      | none => none
      | some (.string named) =>
        if named = identity then none
        else some (errorAnswer "ERR_TURN_NOT_CALLER" "TURN credentials are minted only for the authenticated identity." 403)
      | some _ =>
        some (errorAnswer "ERR_TURN_NOT_CALLER" "TURN credentials are minted only for the authenticated identity." 403)
    | _ => some (errorAnswer "ERR_INVALID_JSON" "The body must be empty or a JSON object." 400)

def windowSecs : UInt64 := 3600

def windowOf (nowSecs : UInt64) : UInt64 := nowSecs - nowSecs % windowSecs

def number (n : UInt64) : Value := .number (toString n.toNat)

/-- The answer to a mint with a spent budget. -/
def budgetSpent (spent : Charge) (windowStart : UInt64) : Answer :=
  let next := windowStart + windowSecs
  ⟨.object [("budget", .string spent.name), ("code", .string "ERR_TURN_BUDGET"),
    ("description", .string ("The " ++ spent.name ++ " budget of " ++ toString spent.cap.toNat ++
      " TURN credentials in the window of " ++ toString windowSecs.toNat ++ " s from " ++ toString windowStart.toNat ++
      " (unix seconds) is spent; ask again from " ++ toString next.toNat ++ ".")),
    ("retryAt", number next), ("status", .string "error"), ("windowSecs", number windowSecs),
    ("windowStart", number windowStart)], 429⟩

/-- A mint, and what the world does to it: the clock at its two readings, the faults of its statements, and the
provider's answer, if there is a usable key. -/
structure MintCall where
  deployment : Deployment
  identity : String
  source : Source
  body : Text
  start : UInt64
  started : UInt64
  charged : Option Fault
  provider : Option (Except String Value)
  recorded : Nat → Option Fault

namespace MintCall

def expiresAt (call : MintCall) : UInt64 := call.started + call.deployment.ttlSecs * 1000

/-- The record of a username. -/
def row (call : MintCall) (username : String) : CredentialRow :=
  ⟨username, call.identity, asF64 (asI64 call.expiresAt), asF64 (asI64 call.started)⟩

/-- Up to the provider: the switch, the caller, the key and the budgets. -/
def permit (range : Range) (call : MintCall) (s : TurnStore) :
    Except (Answer × List Effect) (Except String Value) × TurnStore :=
  if !call.deployment.on then (.error (switchedOff, []), s)
  else
    match callerRule range call.body call.identity with
    | some refused => (.error (refused, []), s)
    | none =>
      match call.provider with
      | none => (.error (misconfigured, []), s)
      | some generated =>
        let windowStart := windowOf (call.start / 1000)
        let cs := charges call.deployment.budgets call.identity call.source
        let (error, budgets) := attempt call.charged (fun t => (charge windowStart cs t).2) s.budgets
        match error with
        | some e => (.error (unavailable "The TURN budget could not be read; ask again.",
            [.audit ("AUDIT turn.charge FAILED: " ++ e)]), { s with budgets := budgets })
        | none =>
          match (charge windowStart cs s.budgets).1 with
          | some i => (.error (budgetSpent (cs[i]?.getD ⟨"", "", 0⟩) windowStart, []), { s with budgets := budgets })
          | none => (.ok generated, { s with budgets := budgets })

/-- The usernames recorded in turn, up to the first failure. -/
def recordAll (call : MintCall) : Nat → List String → Credentials → Option String × Credentials
  | _, [], t => (none, t)
  | i, username :: rest, t =>
    match attempt (call.recorded i) (fun t => t.upsert (call.row username)) t with
    | (some e, t) => (some e, t)
    | (none, t) => recordAll call (i + 1) rest t

def success (ice : List Value) (expiresAt : UInt64) : Answer :=
  ⟨.object [("expiresAt", number expiresAt), ("iceServers", .array ice), ("status", .string "success")], 200⟩

end MintCall

def mint (range : Range) (call : MintCall) (s : TurnStore) : Outcome :=
  match call.permit range s with
  | (.error (answer, effects), s) => ⟨answer, s, effects⟩
  | (.ok generated, s) =>
    match generated.bind iceServers with
    | .error why =>
      ⟨errorAnswer "ERR_TURN_PROVIDER" "The TURN provider did not mint credentials; the request was charged." 502, s,
        [.generated, .audit ("AUDIT turn.mint provider failed: " ++ why)]⟩
    | .ok (ice, usernames) =>
      match call.recordAll 0 usernames s.credentials with
      -- What nobody could revoke is revoked at once, whatever the provider says.
      | (some e, t) =>
        ⟨unavailable "The credential could not be recorded; ask again.", { s with credentials := t },
          .generated :: .audit ("AUDIT turn.record FAILED: " ++ e) :: usernames.map .asked⟩
      | (none, t) => ⟨MintCall.success ice call.expiresAt, { s with credentials := t }, [.generated]⟩

/-- The longest username read. -/
def maxUsernameChars : Nat := 256

def readUsername (range : Range) (body : Text) : Option String :=
  (((Value.fromSlice range body).bind (fun v => v.get "username")).bind Value.asStr).filter
    (fun u => u ≠ "" && u.length ≤ maxUsernameChars)

/-- A revocation, the provider's answer to it if there is a usable key, and the faults of its statements. -/
structure RevokeCall where
  deployment : Deployment
  identity : String
  body : Text
  provider : Option (Except String Unit)
  ownerFault : Option String
  forgotten : Option Fault

def revokedAnswer : Answer := ⟨.object [("revoked", .bool true), ("status", .string "success")], 200⟩

def notFound : Answer :=
  errorAnswer "ERR_TURN_CREDENTIAL_NOT_FOUND" "No TURN credential of this identity has that username." 404

def usernameRequired : Answer :=
  errorAnswer "ERR_USERNAME_REQUIRED" "The body must be \x7b\"username\": <a TURN username this identity minted>\x7d." 400

/-- Whose a username is. -/
def owner (t : Credentials) (username : String) : Option String := (t.find? username).map CredentialRow.identityKey

def forget (username : String) (t : Credentials) : Credentials := t.keep (fun row => row.username ≠ username)

def revoke (range : Range) (call : RevokeCall) (s : TurnStore) : Outcome :=
  if !call.deployment.on then ⟨switchedOff, s, []⟩
  else
    match readUsername range call.body with
    | none => ⟨usernameRequired, s, []⟩
    | some username =>
      match call.provider with
      | none => ⟨misconfigured, s, []⟩
      | some revoked =>
        match call.ownerFault with
        | some e => ⟨unavailable "The credential's record could not be read; ask again.", s,
            [.audit ("AUDIT turn.owner FAILED: " ++ e)]⟩
        | none =>
          if owner s.credentials username ≠ some call.identity then ⟨notFound, s, []⟩
          else
            match revoked with
            | .error why =>
              ⟨errorAnswer "ERR_TURN_PROVIDER" "The TURN provider did not revoke the credential; ask again." 502, s,
                [.asked username, .audit ("AUDIT turn.revoke provider failed: " ++ why)]⟩
            | .ok () =>
              -- A record that could not be forgotten goes with its expiry.
              match attempt call.forgotten (forget username) s.credentials with
              | (some e, t) => ⟨revokedAnswer, { s with credentials := t },
                  [.asked username, .audit ("AUDIT turn.forget FAILED: " ++ e)]⟩
              | (none, t) => ⟨revokedAnswer, { s with credentials := t }, [.asked username]⟩

/-- The scheduled sweep at an instant, each of its statements failing or not. -/
structure SweepCall where
  nowMs : UInt64
  windows : Option Fault
  expired : Option Fault

def forgetClosed (call : SweepCall) (s : TurnStore) : TurnStore :=
  { budgets := (attempt call.windows (fun t : Budgets =>
      t.keep (fun row => asF64 (asI64 (windowOf (call.nowMs / 1000))) ≤ row.windowStart)) s.budgets).2
    credentials := (attempt call.expired (fun t : Credentials =>
      t.keep (fun row => asF64 (asI64 call.nowMs) ≤ row.expiresAt)) s.credentials).2 }

inductive Call where
  | mint (call : MintCall)
  | revoke (call : RevokeCall)
  | sweep (call : SweepCall)

/-- A call that was made, with its answer and what it asked of the provider. -/
structure Served where
  call : Call
  answer : Option Answer
  effects : List Effect

def serve (range : Range) : Machine TurnStore Call Served where
  step s call :=
    match call with
    | .mint m =>
      let done := mint range m s
      (done.store, [⟨call, some done.answer, done.effects⟩])
    | .revoke r =>
      let done := revoke range r s
      (done.store, [⟨call, some done.answer, done.effects⟩])
    | .sweep w => (forgetClosed w s, [⟨call, none, []⟩])

/-- The store and the log after some calls, from an empty store. -/
def servedAll (range : Range) (calls : List Call) : Library.Config TurnStore Served :=
  (serve range).run ⟨⟨.empty, .empty⟩, []⟩ calls

end MessageRelay.Turn
