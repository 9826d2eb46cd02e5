import MessageRelay.Lane.Frame

/-! The handshake of a socket: auth messages, the rounds they open and the round a signed General
selects. Signatures and nonces belong to the key library, whose wallet is a parameter. -/

namespace MessageRelay.Session
open MessageRelay.Lane

inductive SessionAuthState where
  | unauthenticated
  | authenticated (serverSessionNonce peerNonce peerIdentityKey : String)
  deriving DecidableEq, Repr

namespace SessionAuthState

def isAuthenticated : SessionAuthState → Bool
  | .authenticated .. => true
  | .unauthenticated => false

def verifiedIdentityKey : SessionAuthState → Option String
  | .authenticated _ _ peerIdentityKey => some peerIdentityKey
  | .unauthenticated => none

end SessionAuthState

inductive MessageType where
  | initialRequest
  | initialResponse
  | certificateRequest
  | certificateResponse
  | general
  deriving DecidableEq, Repr

structure AuthMessage where
  version : String
  messageType : MessageType
  identityKey : String
  nonce : Option String
  initialNonce : Option String
  yourNonce : Option String
  payload : Option Bytes
  signature : Option Bytes
  deriving DecidableEq, Repr

/-- The argument of an `authMessage` event: the two fields read from the JSON itself, and the message
it decodes to. -/
structure AuthArg where
  messageType : Option String
  yourNonce : Option String
  message : Except String AuthMessage

/-- The server's wallet: its identity, its signatures, and the check of a peer's signature over a
message under the key of the session nonce. -/
structure Wallet where
  authVersion : String
  identityKey : Except String String
  createSignature : AuthMessage → String → Except String Bytes
  verifySignature : AuthMessage → String → Bytes → Except String Bool

inductive AuthOutcome where
  | outbound (messages : List AuthMessage)
  | authenticatedGeneral (payload : Bytes)
  | quiet
  | error (reason : String)

/-- `created` is what the wallet's nonce call returned. -/
def processInitialRequest (wallet : Wallet) (msg : AuthMessage) (created : Except String String) :
    Except String AuthMessage := do
  let myIdentity ← wallet.identityKey
  let sessionNonce ← created
  match msg.initialNonce.or msg.nonce with
  | none => .error "InitialRequest missing initial_nonce/nonce — cannot reply"
  | some peerNonce =>
    let response : AuthMessage :=
      { version := wallet.authVersion, messageType := .initialResponse, identityKey := myIdentity,
        nonce := some sessionNonce, initialNonce := some sessionNonce, yourNonce := some peerNonce,
        payload := none, signature := none }
    let signature ← wallet.createSignature response msg.identityKey
    .ok { response with signature := some signature }

def processGeneral (wallet : Wallet) (msg : AuthMessage) (state : SessionAuthState) : Except String Bytes :=
  match state with
  | .unauthenticated => .error "General message before InitialRequest"
  | .authenticated serverSessionNonce _ peerIdentityKey =>
    if msg.identityKey ≠ peerIdentityKey then
      .error ("identity key mismatch: session=" ++ peerIdentityKey ++ ", msg=" ++ msg.identityKey)
    else
      match msg.signature with
      | none => .error "General without signature"
      | some signature =>
        match wallet.verifySignature msg serverSessionNonce signature with
        | .error e => .error ("verify_signature error: " ++ e)
        | .ok false => .error "General signature invalid"
        | .ok true => .ok (msg.payload.getD [])

def handleAuthMessage (wallet : Wallet) (raw : AuthArg) (state : SessionAuthState)
    (created : Except String String) : AuthOutcome :=
  match raw.message with
  | .error e => .error ("decode authMessage JSON: " ++ e)
  | .ok msg =>
    if msg.version ≠ wallet.authVersion then
      .error ("auth version mismatch: expected " ++ wallet.authVersion ++ ", got " ++ msg.version)
    else
      match msg.messageType with
      | .initialRequest =>
        match processInitialRequest wallet msg created with
        | .ok out => .outbound [out]
        | .error e => .error e
      | .general =>
        match processGeneral wallet msg state with
        | .ok payload => .authenticatedGeneral payload
        | .error e => .error e
      | .initialResponse | .certificateRequest | .certificateResponse => .quiet

def sessionFromInitialResponse (inbound : AuthArg) (outbound : AuthMessage) : Except String SessionAuthState := do
  let inboundMsg ← inbound.message
  match outbound.initialNonce.or outbound.nonce, inboundMsg.initialNonce.or inboundMsg.nonce with
  | none, _ => .error "outbound InitialResponse missing nonce"
  | some _, none => .error "inbound InitialRequest missing nonce"
  | some serverSessionNonce, some peerNonce =>
    .ok (.authenticated serverSessionNonce peerNonce inboundMsg.identityKey)

/-- The session's selected round and the rounds it completed, as kept in the durable storage. -/
structure AuthRoundState where
  current : SessionAuthState
  rounds : List SessionAuthState
  deriving DecidableEq, Repr

/-- A completed round is kept, and selected only while no other is. -/
def rememberAuthRound (r : AuthRoundState) (state : SessionAuthState) : AuthRoundState :=
  let kept := if r.rounds = [] ∧ r.current.isAuthenticated then [r.current] else r.rounds
  let pushed := kept ++ [state]
  { current := if r.current.isAuthenticated then r.current else state,
    rounds := if 16 < pushed.length then pushed.drop 1 else pushed }

/-- The round with this nonce, the selected one first and then the newest. -/
def selectRound (r : AuthRoundState) (yourNonce : Option String) : Option SessionAuthState :=
  (r.current :: r.rounds.reverse).find? (fun candidate =>
    match candidate with
    | .authenticated serverSessionNonce _ _ => yourNonce == some serverSessionNonce
    | .unauthenticated => false)

def advanceAuthRounds (wallet : Wallet) (raw : AuthArg) (r : AuthRoundState)
    (created : Except String String) : AuthOutcome × AuthRoundState :=
  if raw.messageType = some "general" then
    match selectRound r raw.yourNonce with
    | none => (.error "General session not found for nonce", r)
    | some candidate =>
      match handleAuthMessage wallet raw candidate created with
      | .authenticatedGeneral payload => (.authenticatedGeneral payload, { r with current := candidate })
      | outcome => (outcome, r)
  else
    match handleAuthMessage wallet raw r.current created with
    | .outbound (out :: rest) =>
      match sessionFromInitialResponse raw out with
      | .ok state => (.outbound (out :: rest), rememberAuthRound r state)
      | .error _ => (.outbound (out :: rest), r)
    | outcome => (outcome, r)

/-- The message carries a signature of the identity that the round's session nonce verifies. -/
def SignedBy (wallet : Wallet) (raw : AuthArg) (round : SessionAuthState) (identity : String) : Prop :=
  ∃ msg serverSessionNonce peerNonce signature,
    raw.message = .ok msg ∧ round = .authenticated serverSessionNonce peerNonce identity ∧
      msg.identityKey = identity ∧ msg.signature = some signature ∧
      wallet.verifySignature msg serverSessionNonce signature = .ok true

theorem handleAuthMessage_general {wallet : Wallet} {raw : AuthArg} {state : SessionAuthState}
    {created : Except String String} {payload : Bytes}
    (verified : handleAuthMessage wallet raw state created = .authenticatedGeneral payload) :
    ∃ identity, state.verifiedIdentityKey = some identity ∧ SignedBy wallet raw state identity := by
  unfold handleAuthMessage at verified
  split at verified
  · cases verified
  next msg decoded =>
    split at verified
    · cases verified
    split at verified
    · split at verified <;> cases verified
    · split at verified
      next checked =>
        unfold processGeneral at checked
        split at checked
        · cases checked
        next serverSessionNonce peerNonce peerIdentityKey =>
          split at checked
          · cases checked
          next sameKey =>
            split at checked
            · cases checked
            next signature signed =>
              split at checked
              · cases checked
              · cases checked
              next valid =>
                exact ⟨peerIdentityKey, rfl, msg, serverSessionNonce, peerNonce, signature, decoded, rfl,
                  not_not.mp sameKey, signed, valid⟩
      next => cases verified
    all_goals cases verified

/-- The round a message speaks on: the one its nonce selects for a General, else the selected one. -/
def namedRound (raw : AuthArg) (r : AuthRoundState) : SessionAuthState :=
  if raw.messageType = some "general" then (selectRound r raw.yourNonce).getD r.current else r.current

/-- A verified General selects the round it names, and was signed by that round's peer. -/
theorem advanceAuthRounds_general {wallet : Wallet} {raw : AuthArg} {r r' : AuthRoundState}
    {created : Except String String} {payload : Bytes}
    (verified : advanceAuthRounds wallet raw r created = (.authenticatedGeneral payload, r')) :
    r' = { r with current := namedRound raw r } ∧
      ∃ identity, (namedRound raw r).verifiedIdentityKey = some identity ∧
        SignedBy wallet raw (namedRound raw r) identity := by
  unfold advanceAuthRounds at verified
  unfold namedRound
  split at verified
  next isGeneral =>
    rw [if_pos isGeneral]
    split at verified
    · cases verified
    next candidate selected =>
      rw [selected, Option.getD_some]
      split at verified
      next handled =>
        cases verified
        exact ⟨rfl, handleAuthMessage_general handled⟩
      next other => exact absurd (congrArg Prod.fst verified) (other payload)
  next notGeneral =>
    rw [if_neg notGeneral]
    split at verified
    · split at verified <;> cases verified
    next =>
      obtain ⟨handled, same⟩ := Prod.mk.inj verified
      exact ⟨same.symm, handleAuthMessage_general handled⟩

/-- No other message moves the selected round. -/
theorem advanceAuthRounds_current {wallet : Wallet} {raw : AuthArg} {r : AuthRoundState}
    {created : Except String String}
    (other : ∀ payload, (advanceAuthRounds wallet raw r created).1 ≠ .authenticatedGeneral payload)
    (selected : r.current.isAuthenticated = true) :
    (advanceAuthRounds wallet raw r created).2.current = r.current := by
  unfold advanceAuthRounds at other ⊢
  split
  next isGeneral =>
    rw [if_pos isGeneral] at other
    split
    · rfl
    next candidate chosen =>
      simp only [chosen] at other
      split
      next payload handled =>
        simp only [handled] at other
        exact absurd rfl (other payload)
      next => rfl
  next =>
    split
    · split
      · simp [rememberAuthRound, selected]
      · rfl
    · rfl

end MessageRelay.Session
