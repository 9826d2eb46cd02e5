import MessageRelay.Library.ReplayWindow
import MessageRelay.Lane.Frame

/-! The hub's mirror of a session lane, against which the HTTP lane is verified. -/

namespace MessageRelay.Lane
open MessageRelay.Library

/-- What a socket's forward tells the identity's hub about its lane. -/
structure MirrorUpdate where
  id : String
  key : String
  expiresAtMs : Nat
  mintedAtMs : Nat
  deriving DecidableEq, Repr

structure HubMirror where
  id : String
  key : String
  identity : String
  expiresAtMs : Nat
  mintedAtMs : Nat
  lastH : Nat
  seenMask : BitVec 64
  deriving DecidableEq, Repr

def httpReplayWindow : Nat := 64

namespace HubMirror

def new (identity : String) (update : MirrorUpdate) : HubMirror :=
  { id := update.id,
    key := update.key,
    identity := toAsciiLowercase identity,
    expiresAtMs := update.expiresAtMs,
    mintedAtMs := update.mintedAtMs,
    lastH := 0,
    seenMask := 0#64 }

def refreshDue (m : HubMirror) (expiresAtMs : Nat) : Bool :=
  saturatingAdd m.expiresAtMs mirrorRefreshSlackMs < expiresAtMs

def pastLifetime (m : HubMirror) (nowMs : Nat) : Bool :=
  saturatingAdd m.mintedAtMs laneMaxLifetimeMs < nowMs

def isLive (m : HubMirror) (nowMs : Nat) : Bool :=
  nowMs ≤ m.expiresAtMs && !m.pastLifetime nowMs

/-- Counters at most `httpReplayWindow` below the highest are fresh until their bit is set. -/
def counterIsFresh (m : HubMirror) (h : Nat) : Bool :=
  if m.lastH < h then true
  else if httpReplayWindow ≤ m.lastH - h then false
  else m.seenMask &&& (1#64 <<< (m.lastH - h)) == 0#64

def acceptCounter (m : HubMirror) (h : Nat) : HubMirror :=
  if m.lastH < h then
    { m with
      seenMask := (if 64 ≤ h - m.lastH then 0#64 else m.seenMask <<< (h - m.lastH)) ||| 1#64,
      lastH := h }
  else { m with seenMask := m.seenMask ||| (1#64 <<< (m.lastH - h)) }

def verifyHttp (crypto : Crypto) (m : HubMirror) (h : Nat) (method pathAndQuery : String)
    (bodyDigest : Bytes32) (macHex : String) (nowMs : Nat) : Except Refusal HubMirror :=
  if m.expiresAtMs < nowMs || m.pastLifetime nowMs then .error .expired
  else if h == 0 || !m.counterIsFresh h then .error .replay
  else
    match hex32 m.key with
    | none => .error .unknownSession
    | some key =>
      match hex32 macHex with
      | none => .error .malformed
      | some mac =>
        let expected := frameMacOverDigest crypto key h (httpEvent method pathAndQuery) bodyDigest
        if constantTimeEq expected.toList mac.toList then
          .ok { m.acceptCounter h with expiresAtMs := nowMs + sessionIdleMs }
        else .error .badMac

def window (m : HubMirror) : ReplayWindow 64 :=
  { last := m.lastH, mask := m.seenMask }

@[simp] theorem acceptCounter_window (m : HubMirror) (h : Nat) :
    (m.acceptCounter h).window = m.window.accept h := by
  unfold acceptCounter ReplayWindow.accept
  split
  · rename_i above
    rw [if_pos (show m.window.last < h from above)]
    rfl
  · rename_i within
    rw [if_neg (show ¬m.window.last < h from within)]
    rfl

@[simp] theorem acceptCounter_id (m : HubMirror) (h : Nat) : (m.acceptCounter h).id = m.id := by
  unfold acceptCounter
  split <;> rfl

/-- An accepted request: its counter was fresh, and only the window and the expiry move. -/
theorem verifyHttp_ok {crypto : Crypto} {m m' : HubMirror} {h : Nat} {method pathAndQuery : String}
    {bodyDigest : Bytes32} {macHex : String} {nowMs : Nat}
    (ok : verifyHttp crypto m h method pathAndQuery bodyDigest macHex nowMs = .ok m') :
    m.window.fresh h = true ∧ m' = { m.acceptCounter h with expiresAtMs := nowMs + sessionIdleMs } := by
  unfold verifyHttp at ok
  split at ok
  · cases ok
  split at ok
  · cases ok
  next refused =>
    have unseen : m.counterIsFresh h = true := by
      simp only [Bool.or_eq_true, Bool.not_eq_true', not_or] at refused
      simpa using refused.2
    split at ok
    · cases ok
    split at ok
    · cases ok
    dsimp only at ok
    split at ok
    · exact ⟨unseen, (Except.ok.inj ok).symm⟩
    · cases ok

end HubMirror

end MessageRelay.Lane
