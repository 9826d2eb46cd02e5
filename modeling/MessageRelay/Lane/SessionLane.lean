import MessageRelay.Lane.Mirror

/-! The session lane of one socket: the two counters, the idle window and the absolute lifetime. -/

namespace MessageRelay.Lane

structure SessionLane where
  id : String
  key : String
  identity : String
  expiresAtMs : Nat
  mintedAtMs : Nat
  lastIn : Nat
  nextOut : Nat
  active : Bool
  deriving DecidableEq, Repr

structure Frame where
  s : Option String
  n : Nat
  e : String
  d : String
  m : String
  deriving DecidableEq, Repr

def keyDerivationLabel : String := "low-relay-session/v1"

def deriveKey (crypto : Crypto) (salt id : Bytes32) (clientNonce serverNonce : String) : Bytes32 :=
  crypto.sha256Hmac salt (utf8 keyDerivationLabel ++ id.toList ++ utf8 clientNonce ++ utf8 serverNonce)

def MirrorUpdate.ofLane (lane : SessionLane) : MirrorUpdate :=
  { id := lane.id, key := lane.key, expiresAtMs := lane.expiresAtMs, mintedAtMs := lane.mintedAtMs }

namespace SessionLane

/-- A new lane. The id and the salt are the two halves of what the platform drew. -/
def mint (crypto : Crypto) (identity clientNonce serverNonce : String) (id salt : Bytes32) (nowMs : Nat) :
    SessionLane :=
  { id := hexEncode id.toList,
    key := hexEncode (deriveKey crypto salt id clientNonce serverNonce).toList,
    identity := identity,
    expiresAtMs := nowMs + sessionIdleMs,
    mintedAtMs := nowMs,
    lastIn := 0,
    nextOut := 1,
    active := false }

def pastLifetime (lane : SessionLane) (nowMs : Nat) : Bool :=
  saturatingAdd lane.mintedAtMs laneMaxLifetimeMs < nowMs

def isLive (lane : SessionLane) (nowMs : Nat) : Bool :=
  nowMs ≤ lane.expiresAtMs && !lane.pastLifetime nowMs

/-- What has expired stays so. -/
theorem isLive_earlier {lane : SessionLane} {t u : Nat} (before : t ≤ u) (live : lane.isLive u = true) :
    lane.isLive t = true := by
  simp only [isLive, pastLifetime, Bool.and_eq_true, decide_eq_true_eq, Bool.not_eq_true',
    decide_eq_false_iff_not] at live ⊢
  omega

/-- The lane after the frame, with the event name and the data text to route. -/
def verifyInbound (crypto : Crypto) (lane : SessionLane) (frame : Frame) (nowMs : Nat) :
    Except Refusal (SessionLane × String × String) :=
  match frame.s with
  | none => .error .malformed
  | some s =>
    if !constantTimeEq (utf8 s) (utf8 lane.id) then .error .unknownSession
    else if lane.expiresAtMs < nowMs || lane.pastLifetime nowMs then .error .expired
    else if frame.n ≤ lane.lastIn then .error .replay
    else
      match hex32 lane.key with
      | none => .error .unknownSession
      | some key =>
        match hex32 frame.m with
        | none => .error .malformed
        | some m =>
          if constantTimeEq (frameMac crypto key frame.n frame.e frame.d).toList m.toList then
            .ok ({ lane with lastIn := frame.n, expiresAtMs := nowMs + sessionIdleMs, active := true },
              frame.e, frame.d)
          else .error .badMac

def sealOutbound (crypto : Crypto) (lane : SessionLane) (e d : String) (nowMs : Nat) :
    Option (Frame × SessionLane) :=
  if lane.pastLifetime nowMs then none
  else
    match hex32 lane.key with
    | none => none
    | some key =>
      some
        ({ s := none, n := lane.nextOut, e := e, d := d,
           m := hexEncode (frameMac crypto key lane.nextOut e d).toList },
          { lane with nextOut := lane.nextOut + 1, expiresAtMs := nowMs + sessionIdleMs })

/-- An accepted frame names this lane, comes inside both windows, and its counter is new. -/
theorem verifyInbound_ok {crypto : Crypto} {lane lane' : SessionLane} {frame : Frame} {nowMs : Nat}
    {e d : String} (ok : verifyInbound crypto lane frame nowMs = .ok (lane', e, d)) :
    frame.s = some lane.id ∧ lane.isLive nowMs = true ∧ lane.lastIn < frame.n ∧
      lane' = { lane with lastIn := frame.n, expiresAtMs := nowMs + sessionIdleMs, active := true } := by
  unfold verifyInbound at ok
  split at ok
  · cases ok
  next s named =>
    split at ok
    · cases ok
    next sameId =>
      split at ok
      · cases ok
      next inWindow =>
        split at ok
        · cases ok
        next newer =>
          split at ok
          · cases ok
          split at ok
          · cases ok
          split at ok
          · cases ok
            refine ⟨?_, ?_, by omega, rfl⟩
            · have same : s = lane.id := by
                simp only [Bool.not_eq_true', Bool.not_eq_false, constantTimeEq_iff] at sameId
                exact utf8_injective sameId
              rw [named, same]
            · simpa [isLive] using inWindow
          · cases ok

theorem sealOutbound_some {crypto : Crypto} {lane lane' : SessionLane} {frame : Frame} {nowMs : Nat}
    {e d : String} (sealed : sealOutbound crypto lane e d nowMs = some (frame, lane')) :
    frame.n = lane.nextOut ∧
      lane' = { lane with nextOut := lane.nextOut + 1, expiresAtMs := nowMs + sessionIdleMs } := by
  unfold sealOutbound at sealed
  split at sealed
  · cases sealed
  split at sealed
  · cases sealed
  cases sealed
  exact ⟨rfl, rfl⟩

end SessionLane

end MessageRelay.Lane
