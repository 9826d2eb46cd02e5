import MessageRelay.Lane.SessionLane
import MessageRelay.Library.Machine

/-! One key for four kinds of traffic: the client's frames, the deliveries, the HTTP requests and their answers. What a
MAC is accepted for is what it was made for. Nothing in it says who made it. -/

namespace MessageRelay.Lane
open MessageRelay.Library

def httpResponseEvent : String := "response"

/-- The seal of an answer, under the counter of its request. -/
def responseMac (crypto : Crypto) (keyHex : String) (h : Nat) (bodyText : String) : Option Bytes32 :=
  (hex32 keyHex).map (fun key => frameMac crypto key h httpResponseEvent bodyText)

inductive Maker where
  | frame
  | delivery
  | request
  | answer
  deriving DecidableEq, Repr

inductive Gate where
  | socket
  | http
  deriving DecidableEq, Repr

/-- A MAC that was made, and one that was accepted, with the counter, the event name and the data. -/
inductive Sealed where
  | made (maker : Maker) (n : Nat) (e : String) (data : Bytes) (mac : Bytes32)
  | accepted (gate : Gate) (n : Nat) (e : String) (data : Bytes) (mac : Bytes32)
  deriving DecidableEq

/-- A lane and its mirror in the hub. -/
structure Lanes where
  lane : SessionLane
  mirror : Option HubMirror

/-- What the two sides make, and what anyone presents. -/
inductive Traffic where
  | clientFrame (n : Nat) (e d : String)
  | clientRequest (h : Nat) (method pathAndQuery : String) (body : Bytes)
  | deliver (e d : String) (nowMs : Nat)
  | answer (h : Nat) (bodyText : String)
  | inbound (frame : Frame) (nowMs : Nat)
  | request (h : Nat) (method pathAndQuery : String) (body : Bytes) (macHex : String) (nowMs : Nat)
  | register (identity : String)

section
variable (crypto : Crypto)

def laneTraffic : Machine Lanes Traffic Sealed where
  step w
    | .clientFrame n e d =>
      (w, match hex32 w.lane.key with
        | some key => [.made .frame n e (utf8 d) (frameMac crypto key n e d)]
        | none => [])
    | .clientRequest h method pathAndQuery body =>
      (w, match hex32 w.lane.key with
        | some key => [.made .request h (httpEvent method pathAndQuery) body
            (frameMacOverDigest crypto key h (httpEvent method pathAndQuery) (crypto.sha256 body))]
        | none => [])
    | .deliver e d nowMs =>
      if w.lane.active && w.lane.isLive nowMs then
        match w.lane.sealOutbound crypto e d nowMs with
        | none => (w, [])
        | some (frame, lane) =>
          ({ w with lane := lane }, ((hex32 frame.m).map (.made .delivery frame.n e (utf8 d))).toList)
      else (w, [])
    | .answer h bodyText =>
      (w, match w.mirror.bind (fun mirror => responseMac crypto mirror.key h bodyText) with
        | some mac => [.made .answer h httpResponseEvent (utf8 bodyText) mac]
        | none => [])
    | .inbound frame nowMs =>
      match w.lane.verifyInbound crypto frame nowMs with
      | .error _ => (w, [])
      | .ok (lane, e, d) => ({ w with lane := lane }, ((hex32 frame.m).map (.accepted .socket frame.n e (utf8 d))).toList)
    | .request h method pathAndQuery body macHex nowMs =>
      match w.mirror with
      | none => (w, [])
      | some mirror =>
        match mirror.verifyHttp crypto h method pathAndQuery (crypto.sha256 body) macHex nowMs with
        | .error _ => (w, [])
        | .ok mirror => ({ w with mirror := some mirror },
            ((hex32 macHex).map (.accepted .http h (httpEvent method pathAndQuery) body)).toList)
    | .register identity => ({ w with mirror := some (.new identity (.ofLane w.lane)) }, [])

/-- The message of a MAC. -/
def frameBytes (n : Nat) (e : String) (data : Bytes) : Bytes :=
  toLeBytes n ++ utf8 e ++ [0] ++ (crypto.sha256 data).toList

def Sealed.bytes : Sealed → Bytes
  | .made _ n e data _ => frameBytes crypto n e data
  | .accepted _ n e data _ => frameBytes crypto n e data

def Sealed.data : Sealed → Bytes
  | .made _ _ _ data _ => data
  | .accepted _ _ _ data _ => data

/-- No two different inputs of a hash collide, of those the log has. -/
def Collisionless (key : Bytes32) (log : List Sealed) : Prop :=
  ∀ x ∈ log, ∀ y ∈ log, (crypto.sha256 x.data = crypto.sha256 y.data → x.data = y.data) ∧
    (crypto.sha256Hmac key (x.bytes crypto) = crypto.sha256Hmac key (y.bytes crypto) → x.bytes crypto = y.bytes crypto)

instance (key : Bytes32) (log : List Sealed) : Decidable (Collisionless crypto key log) :=
  inferInstanceAs (Decidable (∀ x ∈ log, ∀ y ∈ log, _ ∧ _))

end

/-- A letter that no method has, in its upper case. -/
def lowerCase (c : Char) : Bool := 'a' ≤ c ∧ c ≤ 'z'

/-- The name has a small letter before its first blank, as the relay's own event names have. -/
def smallLetterFirst (e : String) : Bool := (e.toList.takeWhile (· ≠ ' ')).any lowerCase

/-! Hexadecimal text and the layout, read back. -/

theorem hexDigit_hexOfNibble : ∀ n < 16, hexDigit (hexOfNibble n) = some n := by decide

theorem hexDecodeChars_encode (bytes : Bytes) :
    hexDecodeChars (bytes.flatMap (fun b => [hexOfNibble (b.toNat / 16), hexOfNibble (b.toNat % 16)])) =
      some bytes := by
  induction bytes with
  | nil => rfl
  | cons b rest ih =>
    have high : hexDigit (hexOfNibble (b.toNat / 16)) = some (b.toNat / 16) :=
      hexDigit_hexOfNibble _ (by have := b.toNat_lt; omega)
    have low : hexDigit (hexOfNibble (b.toNat % 16)) = some (b.toNat % 16) :=
      hexDigit_hexOfNibble _ (Nat.mod_lt _ (by omega))
    rw [List.flatMap_cons, List.cons_append, List.cons_append, List.nil_append, hexDecodeChars, high, low, ih]
    simp only [Nat.div_add_mod, UInt8.ofNat_toNat]

theorem hex32_hexEncode (bytes : Bytes32) : hex32 (hexEncode bytes.toList) = some bytes := by
  have decoded : hexDecode (hexEncode bytes.toList) = some bytes.toList := by
    rw [hexDecode, hexEncode, String.toList_ofList, hexDecodeChars_encode]
  rw [hex32, decoded]
  exact dif_pos bytes.toList_length

/-- A number below a power is its bytes. -/
theorem mod_eq_of_bytes {n m : Nat} (width : Nat) (bytes : ∀ i < width, n / 256 ^ i % 256 = m / 256 ^ i % 256) :
    n % 256 ^ width = m % 256 ^ width := by
  induction width with
  | zero => simp [Nat.mod_one]
  | succ width ih =>
    rw [pow_succ, Nat.mod_mul, Nat.mod_mul, ih (fun i below => bytes i (by omega)), bytes width (by omega)]

theorem toLeBytes_inj {n m : Nat} (same : toLeBytes n = toLeBytes m) : n % 2 ^ 64 = m % 2 ^ 64 := by
  have bytes : ∀ i < 8, n / 256 ^ i % 256 = m / 256 ^ i % 256 := by
    intro i below
    have byte := List.map_inj_left.mp same i (List.mem_range.mpr below)
    simpa using congrArg UInt8.toNat byte
  have width : (2 : Nat) ^ 64 = 256 ^ 8 := by norm_num
  rw [width]
  exact mod_eq_of_bytes 8 bytes

/-- The counter and the digest have fixed lengths, so the event name is what stands between them. -/
theorem frameBytes_inj {crypto : Crypto} {n n' : Nat} {e e' : String} {data data' : Bytes}
    (same : frameBytes crypto n e data = frameBytes crypto n' e' data') :
    n % 2 ^ 64 = n' % 2 ^ 64 ∧ e = e' ∧ crypto.sha256 data = crypto.sha256 data' := by
  have eight : (toLeBytes n).length = (toLeBytes n').length := by simp [toLeBytes]
  have last : (crypto.sha256 data).toList.length = (crypto.sha256 data').toList.length := by
    rw [List.Vector.toList_length, List.Vector.toList_length]
  obtain ⟨front, digest⟩ := List.append_inj' same last
  obtain ⟨named, -⟩ := List.append_inj' front rfl
  obtain ⟨counter, event⟩ := List.append_inj named eight
  exact ⟨toLeBytes_inj counter, utf8_injective event, List.Vector.toList_injective digest⟩

theorem lowerCase_toUpper (c : Char) : lowerCase c.toUpper = false := by
  unfold lowerCase Char.toUpper
  split
  next small =>
    rw [decide_eq_false_iff_not]
    rintro ⟨low, -⟩
    have raised : (97 : UInt32) ≤ c.val + (65 - 97) := low
    have above : (97 : UInt32) ≤ c.val := small.1
    have below : c.val ≤ (122 : UInt32) := small.2
    rw [UInt32.le_iff_toNat_le] at raised above below
    simp only [UInt32.toNat_add, UInt32.toNat_sub, UInt32.reduceToNat] at raised above below
    omega
  next other =>
    rw [decide_eq_false_iff_not]
    exact other

/-- A method is in upper case. -/
theorem smallLetterFirst_httpEvent (method pathAndQuery : String) :
    smallLetterFirst (httpEvent method pathAndQuery) = false := by
  have parts : (httpEvent method pathAndQuery).toList =
      method.toList.map Char.toUpper ++ ' ' :: pathAndQuery.toList := by
    simp [httpEvent, toAsciiUppercase]
  have front : ((httpEvent method pathAndQuery).toList.takeWhile (· ≠ ' ')) <+: method.toList.map Char.toUpper := by
    rw [parts, List.takeWhile_append]
    split
    · simp
    · exact List.takeWhile_prefix _
  rw [smallLetterFirst, List.any_eq_false]
  intro c member
  obtain ⟨original, -, rfl⟩ := List.mem_map.mp (front.subset member)
  simp [lowerCase_toUpper]

section
variable {crypto : Crypto} {key : Bytes32}

/-- What a delivery's MAC is. -/
theorem SessionLane.sealOutbound_mac {lane lane' : SessionLane} {frame : Frame} {nowMs : Nat} {e d : String}
    (keyed : hex32 lane.key = some key) (out : lane.sealOutbound crypto e d nowMs = some (frame, lane')) :
    hex32 frame.m = some (frameMac crypto key frame.n e d) ∧ lane'.key = lane.key := by
  unfold SessionLane.sealOutbound at out
  rw [keyed] at out
  split at out
  · cases out
  cases out
  exact ⟨hex32_hexEncode _, rfl⟩

/-- What an accepted frame's MAC is. -/
theorem SessionLane.verifyInbound_mac {lane lane' : SessionLane} {frame : Frame} {nowMs : Nat} {e d : String}
    (keyed : hex32 lane.key = some key) (ok : lane.verifyInbound crypto frame nowMs = .ok (lane', e, d)) :
    hex32 frame.m = some (frameMac crypto key frame.n e d) ∧ lane'.key = lane.key := by
  unfold SessionLane.verifyInbound at ok
  split at ok
  · cases ok
  split at ok
  · cases ok
  split at ok
  · cases ok
  split at ok
  · cases ok
  rw [keyed] at ok
  dsimp only at ok
  cases text : hex32 frame.m with
  | none =>
    rw [text] at ok
    cases ok
  | some m =>
    rw [text] at ok
    dsimp only at ok
    split at ok
    next same =>
      cases ok
      rw [constantTimeEq_iff] at same
      exact ⟨congrArg some (List.Vector.toList_injective same).symm, rfl⟩
    next => cases ok

/-- What an accepted request's MAC is. -/
theorem HubMirror.verifyHttp_mac {m m' : HubMirror} {h : Nat} {method pathAndQuery macHex : String}
    {bodyDigest : Bytes32} {nowMs : Nat} (keyed : hex32 m.key = some key)
    (ok : m.verifyHttp crypto h method pathAndQuery bodyDigest macHex nowMs = .ok m') :
    hex32 macHex = some (frameMacOverDigest crypto key h (httpEvent method pathAndQuery) bodyDigest) ∧
      m'.key = m.key := by
  have kept : m'.key = m.key := by
    obtain ⟨-, rfl⟩ := HubMirror.verifyHttp_ok ok
    unfold HubMirror.acceptCounter
    split <;> rfl
  refine ⟨?_, kept⟩
  unfold HubMirror.verifyHttp at ok
  split at ok
  · cases ok
  split at ok
  · cases ok
  rw [keyed] at ok
  dsimp only at ok
  cases text : hex32 macHex with
  | none =>
    rw [text] at ok
    cases ok
  | some mac =>
    rw [text] at ok
    dsimp only at ok
    split at ok
    next same =>
      rw [constantTimeEq_iff] at same
      exact congrArg some (List.Vector.toList_injective same).symm
    next => cases ok

variable (crypto key) in
/-- The MAC is that of the message under the key, and the two HTTP kinds keep to their event names. -/
def Sealed.Genuine : Sealed → Prop
  | .made maker n e data mac =>
    mac = crypto.sha256Hmac key (frameBytes crypto n e data) ∧ (maker = .answer → e = httpResponseEvent)
  | .accepted gate n e data mac =>
    mac = crypto.sha256Hmac key (frameBytes crypto n e data) ∧
      (gate = .http → ∃ method pathAndQuery, e = httpEvent method pathAndQuery)

variable (crypto key) in
structure Keyed (c : Config Lanes Sealed) : Prop where
  lane : hex32 c.state.lane.key = some key
  mirror : ∀ mirror ∈ c.state.mirror, hex32 mirror.key = some key
  log : ∀ event ∈ c.log, event.Genuine crypto key

/-- A step that adds genuine events and keeps the two keys. -/
theorem Keyed.step {c : Config Lanes Sealed} (keyed : Keyed crypto key c) {w : Lanes} {events : List Sealed}
    (lane : hex32 w.lane.key = some key) (mirror : ∀ mirror ∈ w.mirror, hex32 mirror.key = some key)
    (genuine : ∀ event ∈ events, event.Genuine crypto key) : Keyed crypto key ⟨w, c.log ++ events⟩ := by
  refine ⟨lane, mirror, fun event member => ?_⟩
  rcases List.mem_append.mp member with old | new
  · exact keyed.log event old
  · exact genuine event new

theorem Keyed.advance (c : Config Lanes Sealed) (input : Traffic) (keyed : Keyed crypto key c) :
    Keyed crypto key ((laneTraffic crypto).advance c input) := by
  have idle : Keyed crypto key ⟨c.state, c.log ++ []⟩ := keyed.step keyed.lane keyed.mirror (by simp)
  cases input with
  | clientFrame n e d =>
    simp only [Machine.advance, laneTraffic, keyed.lane]
    refine keyed.step keyed.lane keyed.mirror ?_
    rintro event (_ | ⟨_, ⟨⟩⟩)
    exact ⟨rfl, by simp⟩
  | clientRequest h method pathAndQuery body =>
    simp only [Machine.advance, laneTraffic, keyed.lane]
    refine keyed.step keyed.lane keyed.mirror ?_
    rintro event (_ | ⟨_, ⟨⟩⟩)
    exact ⟨rfl, by simp⟩
  | deliver e d nowMs =>
    simp only [Machine.advance, laneTraffic]
    split
    · cases out : c.state.lane.sealOutbound crypto e d nowMs with
      | none => exact idle
      | some sent =>
        obtain ⟨frame, lane⟩ := sent
        obtain ⟨text, kept⟩ := SessionLane.sealOutbound_mac keyed.lane out
        simp only [text]
        refine keyed.step (by rw [kept]; exact keyed.lane) keyed.mirror ?_
        rintro event (_ | ⟨_, ⟨⟩⟩)
        exact ⟨rfl, by simp⟩
    · exact idle
  | answer h bodyText =>
    simp only [Machine.advance, laneTraffic]
    cases mirrored : c.state.mirror with
    | none => simpa [mirrored] using idle
    | some mirror =>
      simp only [Option.bind_some, responseMac, keyed.mirror mirror mirrored, Option.map_some]
      refine keyed.step keyed.lane keyed.mirror ?_
      rintro event (_ | ⟨_, ⟨⟩⟩)
      exact ⟨rfl, by simp⟩
  | inbound frame nowMs =>
    simp only [Machine.advance, laneTraffic]
    cases verified : c.state.lane.verifyInbound crypto frame nowMs with
    | error reason => exact idle
    | ok out =>
      obtain ⟨lane, e, d⟩ := out
      obtain ⟨text, kept⟩ := SessionLane.verifyInbound_mac keyed.lane verified
      simp only [text]
      refine keyed.step (by rw [kept]; exact keyed.lane) keyed.mirror ?_
      rintro event (_ | ⟨_, ⟨⟩⟩)
      exact ⟨rfl, by simp⟩
  | request h method pathAndQuery body macHex nowMs =>
    simp only [Machine.advance, laneTraffic]
    cases mirrored : c.state.mirror with
    | none => exact idle
    | some mirror =>
      dsimp only
      cases verified : mirror.verifyHttp crypto h method pathAndQuery (crypto.sha256 body) macHex nowMs with
      | error reason => exact idle
      | ok after =>
        obtain ⟨text, kept⟩ := HubMirror.verifyHttp_mac (keyed.mirror mirror mirrored) verified
        simp only [text]
        refine keyed.step keyed.lane ?_ ?_
        · rintro _ ⟨⟩
          rw [kept]
          exact keyed.mirror mirror mirrored
        · rintro event (_ | ⟨_, ⟨⟩⟩)
          exact ⟨rfl, fun _ => ⟨method, pathAndQuery, rfl⟩⟩
  | register identity =>
    refine keyed.step keyed.lane ?_ (by simp [laneTraffic])
    rintro _ ⟨⟩
    exact keyed.lane

/-- A MAC that is accepted was made for the same counter, event name and data. -/
theorem Keyed.bound {c : Config Lanes Sealed} (genuine : Keyed crypto key c) (free : Collisionless crypto key c.log)
    {maker : Maker} {gate : Gate} {n n' : Nat} {e e' : String} {data data' : Bytes} {mac : Bytes32}
    (made : .made maker n e data mac ∈ c.log) (accepted : .accepted gate n' e' data' mac ∈ c.log) :
    n' % 2 ^ 64 = n % 2 ^ 64 ∧ e' = e ∧ data' = data := by
  obtain ⟨digests, macs⟩ := free _ accepted _ made
  have same : crypto.sha256Hmac key (frameBytes crypto n' e' data') =
      crypto.sha256Hmac key (frameBytes crypto n e data) :=
    (genuine.log _ accepted).1.symm.trans (genuine.log _ made).1
  obtain ⟨counter, event, digest⟩ := frameBytes_inj (macs same)
  exact ⟨counter, event, digests digest⟩

end

/-- The message of a lane's key. -/
def keyBytes (id : Bytes32) (clientNonce serverNonce : String) : Bytes :=
  utf8 keyDerivationLabel ++ id.toList ++ utf8 clientNonce ++ utf8 serverNonce

theorem utf8_append (a b : String) : utf8 (a ++ b) = utf8 a ++ utf8 b := by
  simp [utf8]

/-- The label and the id have fixed lengths; the nonces are one text. -/
theorem keyBytes_inj {id id' : Bytes32} {clientNonce serverNonce clientNonce' serverNonce' : String} :
    keyBytes id clientNonce serverNonce = keyBytes id' clientNonce' serverNonce' ↔
      id = id' ∧ clientNonce ++ serverNonce = clientNonce' ++ serverNonce' := by
  constructor
  · intro same
    simp only [keyBytes, List.append_assoc] at same
    have behind := List.append_cancel_left same
    obtain ⟨ids, nonces⟩ := List.append_inj behind (by rw [id.toList_length, id'.toList_length])
    rw [← utf8_append, ← utf8_append] at nonces
    exact ⟨List.Vector.toList_injective ids, utf8_injective nonces⟩
  · rintro ⟨rfl, same⟩
    simp only [keyBytes, List.append_assoc]
    rw [← utf8_append, ← utf8_append, same]

/-- A MAC is accepted only for the counter, the event name and the data it was made for. As a request that is no answer,
and nothing made under a name of the relay's own. A lane's key tells the salt, the id and the two nonces as one text. -/
theorem lane_macs_bound (crypto : Crypto) (lane : SessionLane) (key : Bytes32) (keyed : hex32 lane.key = some key)
    (traffic : List Traffic)
    (free : Collisionless crypto key ((laneTraffic crypto).run ⟨⟨lane, none⟩, []⟩ traffic).log) :
    (∀ maker n e data mac gate n' e' data',
      .made maker n e data mac ∈ ((laneTraffic crypto).run ⟨⟨lane, none⟩, []⟩ traffic).log →
      .accepted gate n' e' data' mac ∈ ((laneTraffic crypto).run ⟨⟨lane, none⟩, []⟩ traffic).log →
      n' % 2 ^ 64 = n % 2 ^ 64 ∧ e' = e ∧ data' = data ∧
        (gate = .http → maker ≠ .answer ∧ smallLetterFirst e = false)) ∧
    (∀ salt id clientNonce serverNonce salt' id' clientNonce' serverNonce',
      (crypto.sha256Hmac salt (keyBytes id clientNonce serverNonce) =
          crypto.sha256Hmac salt' (keyBytes id' clientNonce' serverNonce') →
        salt = salt' ∧ keyBytes id clientNonce serverNonce = keyBytes id' clientNonce' serverNonce') →
      (deriveKey crypto salt id clientNonce serverNonce = deriveKey crypto salt' id' clientNonce' serverNonce' ↔
        salt = salt' ∧ id = id' ∧ clientNonce ++ serverNonce = clientNonce' ++ serverNonce')) := by
  have start : Keyed crypto key ⟨⟨lane, none⟩, []⟩ := ⟨keyed, by simp, by simp⟩
  have genuine := (laneTraffic crypto).run_kept Keyed.advance start traffic
  constructor
  · intro maker n e data mac gate n' e' data' made accepted
    obtain ⟨counter, rfl, same⟩ := genuine.bound free made accepted
    refine ⟨counter, rfl, same, fun http => ?_⟩
    obtain ⟨method, pathAndQuery, rfl⟩ := (genuine.log _ accepted).2 http
    have first := smallLetterFirst_httpEvent method pathAndQuery
    refine ⟨fun answer => ?_, first⟩
    rw [(genuine.log _ made).2 answer] at first
    exact absurd first (by decide)
  · intro salt id clientNonce serverNonce salt' id' clientNonce' serverNonce' distinct
    constructor
    · intro same
      obtain ⟨salts, bytes⟩ := distinct same
      exact ⟨salts, keyBytes_inj.mp bytes⟩
    · rintro ⟨rfl, inside⟩
      exact congrArg (crypto.sha256Hmac salt) (keyBytes_inj.mpr inside)

/-- Hashes that keep the first 32 bytes. -/
def first32 (bytes : Bytes) : Bytes32 := ⟨(bytes ++ List.replicate 32 0).take 32, by simp⟩

def plainCrypto : Crypto := ⟨first32, fun _ bytes => first32 bytes⟩

def plainKey : Bytes32 := deriveKey plainCrypto (first32 [1]) (first32 [2]) "client" "server"

def plainLane : SessionLane := .mint plainCrypto "02aa" "client" "server" (first32 [2]) (first32 [1]) 0

def plainMac (n : Nat) (e d : String) : String := hexEncode (frameMac plainCrypto plainKey n e d).toList

def plainFrame (n : Nat) (e d : String) : Frame := ⟨some plainLane.id, n, e, d, plainMac n e d⟩

/-- Two deliveries, a request and its answer, each presented again as a frame of the client's, and a frame as a request. -/
def mixedTraffic : List Traffic :=
  [.clientFrame 1 "joinRoom" "r", .inbound (plainFrame 1 "joinRoom" "r") 1, .register "02aa",
    .deliver "joinedRoom" "r" 2, .deliver "sendMessage-r" "x" 3, .inbound (plainFrame 2 "sendMessage-r" "x") 4,
    .clientRequest 3 "POST" "/listMessages" (utf8 "b"), .request 3 "POST" "/listMessages" (utf8 "b")
      (plainMac 3 "POST /listMessages" "b") 5, .inbound (plainFrame 3 "POST /listMessages" "b") 6,
    .answer 4 "a", .inbound (plainFrame 4 "response" "a") 7,
    .clientFrame 5 "POST /sendMessage" "m",
    .request 5 "post" "/sendMessage" (utf8 "m") (plainMac 5 "POST /sendMessage" "m") 8]

def plainMade (maker : Maker) (n : Nat) (e d : String) : Sealed :=
  .made maker n e (utf8 d) (frameMac plainCrypto plainKey n e d)

def plainAccepted (gate : Gate) (n : Nat) (e d : String) : Sealed :=
  .accepted gate n e (utf8 d) (frameMac plainCrypto plainKey n e d)

def mixedSealed : List Sealed :=
  [plainMade .frame 1 "joinRoom" "r", plainAccepted .socket 1 "joinRoom" "r", plainMade .delivery 1 "joinedRoom" "r",
    plainMade .delivery 2 "sendMessage-r" "x", plainAccepted .socket 2 "sendMessage-r" "x",
    plainMade .request 3 "POST /listMessages" "b", plainAccepted .http 3 "POST /listMessages" "b",
    plainAccepted .socket 3 "POST /listMessages" "b", plainMade .answer 4 "response" "a",
    plainAccepted .socket 4 "response" "a", plainMade .frame 5 "POST /sendMessage" "m",
    plainAccepted .http 5 "POST /sendMessage" "m"]

theorem mixedTraffic_log :
    ((laneTraffic plainCrypto).run ⟨⟨plainLane, none⟩, []⟩ mixedTraffic).log = mixedSealed := by
  decide +kernel

theorem mixedSealed_collisionless : Collisionless plainCrypto plainKey mixedSealed := by
  decide +kernel

theorem mixed_macs_bound :
    ((laneTraffic plainCrypto).run ⟨⟨plainLane, none⟩, []⟩ mixedTraffic).log = mixedSealed ∧
      ∀ maker n e data mac gate n' e' data', .made maker n e data mac ∈ mixedSealed →
        .accepted gate n' e' data' mac ∈ mixedSealed → n' % 2 ^ 64 = n % 2 ^ 64 ∧ e' = e ∧ data' = data ∧
          (gate = .http → maker ≠ .answer ∧ smallLetterFirst e = false) := by
  have free := mixedSealed_collisionless
  rw [← mixedTraffic_log] at free
  have bound := (lane_macs_bound plainCrypto plainLane plainKey (hex32_hexEncode _) mixedTraffic free).1
  rw [mixedTraffic_log] at bound
  exact ⟨mixedTraffic_log, bound⟩

/-- The delivery, the answer and the request are accepted as frames, the frame is accepted as a request, and two pairs
of nonces give one key, with no collision. -/
theorem macs_not_separated :
    let log := ((laneTraffic plainCrypto).run ⟨⟨plainLane, none⟩, []⟩ mixedTraffic).log
    Collisionless plainCrypto plainKey log ∧
      (plainMade .delivery 2 "sendMessage-r" "x" ∈ log ∧ plainAccepted .socket 2 "sendMessage-r" "x" ∈ log) ∧
      (plainMade .answer 4 "response" "a" ∈ log ∧ plainAccepted .socket 4 "response" "a" ∈ log) ∧
      (plainMade .request 3 "POST /listMessages" "b" ∈ log ∧
        plainAccepted .socket 3 "POST /listMessages" "b" ∈ log) ∧
      (plainMade .frame 5 "POST /sendMessage" "m" ∈ log ∧ plainAccepted .http 5 "POST /sendMessage" "m" ∈ log) ∧
      ∀ crypto salt id, deriveKey crypto salt id "ab" "c" = deriveKey crypto salt id "a" "bc" := by
  have oneKey : ∀ crypto salt id, deriveKey crypto salt id "ab" "c" = deriveKey crypto salt id "a" "bc" := by
    intro crypto salt id
    exact congrArg (crypto.sha256Hmac salt) (keyBytes_inj.mpr ⟨rfl, by decide⟩)
  rw [mixedTraffic_log]
  refine ⟨mixedSealed_collisionless, ?_, ?_, ?_, ?_, oneKey⟩ <;> simp [mixedSealed]

end MessageRelay.Lane
