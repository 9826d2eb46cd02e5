import MessageRelay.Library.Machine
import MessageRelay.Lane.Mirror
import MessageRelay.Session.State

/-! The HTTP window of one mirror over every run of calls, with the mirror written to storage and read back at any
point between them. Storage holds a number only while JavaScript does, so the two counters ride as decimal strings. -/

namespace MessageRelay.Lane
open MessageRelay.Library MessageRelay.Session

/-- `Number.MAX_SAFE_INTEGER`. -/
def maxSafeInteger : Nat := 2 ^ 53 - 1

/-- `str::parse::<u64>`. -/
def parseU64 (text : String) : Option Nat :=
  let digits := if text.toList.head? = some '+' then text.toList.drop 1 else text.toList
  if digits ≠ [] ∧ digits.all Char.isDigit ∧ Nat.ofDigitChars 10 digits 0 < 2 ^ 64 then
    some (Nat.ofDigitChars 10 digits 0)
  else none

/-- A number as the storage's serializer takes it. -/
def numberAtRest (n : Nat) : Option Value := if n ≤ maxSafeInteger then some (.number (toString n)) else none

def readNumber : Value → Option Nat
  | .number text => parseU64 text
  | _ => none

namespace U64AsString

def serialize (n : Nat) : Value := .string (toString n)

def deserialize : Value → Option Nat
  | .number text => parseU64 text
  | .string text => parseU64 text
  | _ => none

end U64AsString

namespace HubMirror

/-- The mirror as storage takes it. A number past the safe integers is refused. -/
def serialize (m : HubMirror) : Option Value :=
  match numberAtRest m.expiresAtMs, numberAtRest m.mintedAtMs with
  | some expires, some minted =>
    some (.object [("id", .string m.id), ("key", .string m.key), ("identity", .string m.identity),
      ("expiresAtMs", expires), ("mintedAtMs", minted), ("lastH", U64AsString.serialize m.lastH),
      ("seenMask", U64AsString.serialize m.seenMask.toNat)])
  | _, _ => none

/-- A mirror without its mint time or its mask is an older one. -/
def deserialize (v : Value) : Option HubMirror :=
  match (v.get "id").bind Value.asStr, (v.get "key").bind Value.asStr, (v.get "identity").bind Value.asStr,
    (v.get "expiresAtMs").bind readNumber, ((v.get "mintedAtMs").map readNumber).getD (some 0),
    (v.get "lastH").bind U64AsString.deserialize, ((v.get "seenMask").map U64AsString.deserialize).getD (some 0) with
  | some id, some key, some identity, some expiresAtMs, some mintedAtMs, some lastH, some seenMask =>
    some { id, key, identity, expiresAtMs, mintedAtMs, lastH, seenMask := BitVec.ofNat 64 seenMask }
  | _, _, _, _, _, _, _ => none

end HubMirror

/-- A time of the JavaScript clock. -/
structure DateMs where
  ms : Nat
  inRange : ms ≤ 8640000000000000

/-- What a socket tells the hub, with the times of clocks. -/
structure TimedUpdate where
  update : MirrorUpdate
  expires : update.expiresAtMs ≤ maxSafeInteger
  minted : update.mintedAtMs ≤ maxSafeInteger

/-- A request of the HTTP lane, its counter a `u64`. -/
structure HttpCall where
  h : BitVec 64
  method : String
  pathAndQuery : String
  bodyDigest : Bytes32
  macHex : String
  now : DateMs

inductive WindowInput where
  | call (call : HttpCall)
  | keep

/-- The counter of a call, with the reason of a refusal. -/
structure Verdict where
  h : Nat
  refused : Option Refusal
  deriving DecidableEq, Repr

def verdict (crypto : Crypto) (m : HubMirror) (call : HttpCall) : Except Refusal HubMirror :=
  m.verifyHttp crypto call.h.toNat call.method call.pathAndQuery call.bodyDigest call.macHex call.now.ms

/-- A mirror that storage does not hold or give back is gone. -/
def windowStep (crypto : Crypto) (held : Option HubMirror) : WindowInput → Option HubMirror × List Verdict
  | .keep => ((held.bind HubMirror.serialize).bind HubMirror.deserialize, [])
  | .call call =>
    match held with
    | none => (none, [])
    | some m =>
      match verdict crypto m call with
      | .ok m' => (some m', [⟨call.h.toNat, none⟩])
      | .error refusal => (some m, [⟨call.h.toNat, some refusal⟩])

def windowMachine (crypto : Crypto) : Machine (Option HubMirror) WindowInput Verdict := ⟨windowStep crypto⟩

abbrev WindowConfig := Config (Option HubMirror) Verdict

def freshWindow (identity : String) (update : TimedUpdate) : WindowConfig :=
  ⟨some (HubMirror.new identity update.update), []⟩

/-- The counters accepted. -/
def acceptedCounters (log : List Verdict) : List Nat :=
  log.filterMap (fun v => if v.refused = none then some v.h else none)

def highestAccepted (log : List Verdict) : Nat := (acceptedCounters log).foldr max 0

/-- The call's MAC is the lane key's over its counter, its method and path, and its body's digest. -/
def ValidMac (crypto : Crypto) (m : HubMirror) (call : HttpCall) : Prop :=
  ∃ key mac, hex32 m.key = some key ∧ hex32 call.macHex = some mac ∧
    frameMacOverDigest crypto key call.h.toNat (httpEvent call.method call.pathAndQuery) call.bodyDigest = mac

theorem parseU64_toString {n : Nat} (bound : n < 2 ^ 64) : parseU64 (toString n) = some n := by
  have digits : (toString n).toList = Nat.toDigits 10 n := by
    rw [Nat.toString_eq_repr, Nat.repr_eq_ofList_toDigits, String.toList_ofList]
  have decimal : ∀ c ∈ Nat.toDigits 10 n, c.isDigit := fun c member =>
    Nat.isDigit_of_mem_toDigits (by decide) (by decide) member
  have unsigned : (Nat.toDigits 10 n).head? ≠ some '+' := by
    intro first
    exact absurd (decimal '+' (List.mem_of_head? first)) (by decide)
  simp only [parseU64, digits, unsigned, if_false, Nat.ofDigitChars_ten_toDigits, List.all_eq_true]
  rw [if_pos ⟨Nat.toDigits_ne_nil, decimal, bound⟩]

theorem readNumber_atRest {n : Nat} {v : Value} (written : numberAtRest n = some v) : readNumber v = some n := by
  unfold numberAtRest at written
  split at written
  · next safe =>
    cases written
    exact parseU64_toString (lt_of_le_of_lt safe (by decide))
  · cases written

/-- What storage took it gives back. -/
theorem deserialize_serialize {m : HubMirror} (counter : m.lastH < 2 ^ 64) {v : Value}
    (written : m.serialize = some v) : HubMirror.deserialize v = some m := by
  unfold HubMirror.serialize at written
  cases expires : numberAtRest m.expiresAtMs with
  | none => simp [expires] at written
  | some expiresAt =>
    cases minted : numberAtRest m.mintedAtMs with
    | none => simp [expires, minted] at written
    | some mintedAt =>
      simp only [expires, minted, Option.some.injEq] at written
      subst written
      have mask := parseU64_toString m.seenMask.isLt
      have last := parseU64_toString counter
      rw [Nat.toString_eq_repr] at mask last
      simp [HubMirror.deserialize, Value.get, Value.asStr, readNumber_atRest expires, readNumber_atRest minted,
        U64AsString.deserialize, U64AsString.serialize, mask, last]

/-- What storage takes and gives back whole. -/
structure Storable (m : HubMirror) : Prop where
  expires : m.expiresAtMs ≤ maxSafeInteger
  minted : m.mintedAtMs ≤ maxSafeInteger
  counter : m.lastH < 2 ^ 64

theorem Storable.kept {m : HubMirror} (storable : Storable m) : m.serialize.bind HubMirror.deserialize = some m := by
  have written : ∃ v, m.serialize = some v := by
    simp only [HubMirror.serialize, numberAtRest, if_pos storable.expires, if_pos storable.minted]
    exact ⟨_, rfl⟩
  obtain ⟨v, written⟩ := written
  rw [written]
  exact deserialize_serialize storable.counter written

theorem acceptedCounters_append (first second : List Verdict) :
    acceptedCounters (first ++ second) = acceptedCounters first ++ acceptedCounters second := List.filterMap_append

theorem highestAccepted_append (log : List Verdict) (h : Nat) :
    highestAccepted (log ++ [⟨h, none⟩]) = max (highestAccepted log) h := by
  unfold highestAccepted
  rw [acceptedCounters_append]
  induction acceptedCounters log with
  | nil => simp [acceptedCounters]
  | cons first rest ih => simp only [List.cons_append, List.foldr_cons, ih, max_assoc]

/-- A live mirror's answer to a call under a valid MAC hangs on the counter alone. -/
theorem verdict_isOk_iff {crypto : Crypto} {m : HubMirror} {call : HttpCall} (live : m.isLive call.now.ms = true)
    (valid : ValidMac crypto m call) :
    (∃ m', verdict crypto m call = .ok m') ↔ call.h.toNat ≠ 0 ∧ m.window.fresh call.h.toNat = true := by
  obtain ⟨key, mac, ofKey, ofMac, same⟩ := valid
  have alive : (decide (m.expiresAtMs < call.now.ms) || m.pastLifetime call.now.ms) = false := by
    simp only [HubMirror.isLive, Bool.and_eq_true, decide_eq_true_eq, Bool.not_eq_true'] at live
    simp only [live.2, Bool.or_false, decide_eq_false_iff_not]
    omega
  have expected : constantTimeEq (frameMacOverDigest crypto key call.h.toNat (httpEvent call.method call.pathAndQuery)
      call.bodyDigest).toList mac.toList = true := by simp [same]
  have fresh : m.counterIsFresh call.h.toNat = m.window.fresh call.h.toNat := rfl
  unfold verdict HubMirror.verifyHttp
  rw [if_neg (by simp [alive])]
  by_cases zero : call.h.toNat = 0
  · simp [zero]
  · by_cases new : m.window.fresh call.h.toNat
    · simp [zero, new, fresh, ofKey, ofMac, expected]
    · simp [zero, new, fresh]

theorem verdict_ok {crypto : Crypto} {m m' : HubMirror} {call : HttpCall} (ok : verdict crypto m call = .ok m') :
    call.h.toNat ≠ 0 ∧ m.window.fresh call.h.toNat = true ∧ m'.window = m.window.accept call.h.toNat ∧
      m'.expiresAtMs = call.now.ms + sessionIdleMs ∧ m'.mintedAtMs = m.mintedAtMs := by
  obtain ⟨fresh, rfl⟩ := HubMirror.verifyHttp_ok ok
  have counted : call.h.toNat ≠ 0 := by
    intro zero
    unfold verdict HubMirror.verifyHttp at ok
    split at ok
    · cases ok
    · simp [zero] at ok
  refine ⟨counted, fresh, HubMirror.acceptCounter_window m _, rfl, ?_⟩
  unfold HubMirror.acceptCounter
  split <;> rfl

/-- What every run keeps: the mirror is held, storage would take it, and its window is exactly what was accepted. -/
structure WindowKeeps (c : WindowConfig) (m : HubMirror) : Prop where
  held : c.state = some m
  storable : Storable m
  last : m.lastH = highestAccepted c.log
  exactly : m.window.Exact (· ∈ acceptedCounters c.log)
  once : (acceptedCounters c.log).Nodup

variable {crypto : Crypto}

theorem windowKeeps_start (identity : String) (update : TimedUpdate) :
    WindowKeeps (freshWindow identity update) (HubMirror.new identity update.update) where
  held := rfl
  storable := ⟨update.expires, update.minted, by simp [HubMirror.new]⟩
  last := rfl
  exactly := by
    constructor
    · intro h taken
      cases taken
    · intro i bound
      simp [HubMirror.window, HubMirror.new, freshWindow, acceptedCounters]
  once := List.nodup_nil

theorem windowKeeps_call {c : WindowConfig} {m : HubMirror} (kept : WindowKeeps c m) (call : HttpCall) :
    ∃ m', WindowKeeps ((windowMachine crypto).advance c (.call call)) m' := by
  unfold Machine.advance windowMachine windowStep
  simp only [kept.held]
  cases answer : verdict crypto m call with
  | error refusal =>
    refine ⟨m, rfl, kept.storable, ?_, ?_, ?_⟩
    · simpa [highestAccepted, acceptedCounters] using kept.last
    · simpa [acceptedCounters] using kept.exactly
    · simpa [acceptedCounters] using kept.once
  | ok m' =>
    obtain ⟨counted, fresh, window, expires, minted⟩ := verdict_ok answer
    have listed : acceptedCounters (c.log ++ [⟨call.h.toNat, none⟩]) = acceptedCounters c.log ++ [call.h.toNat] := by
      simp [acceptedCounters]
    have unseen := ((kept.exactly.fresh_iff _).mp fresh).1
    have last : m'.lastH = max m.lastH call.h.toNat := by
      have moved : m'.window.last = (m.window.accept call.h.toNat).last := congrArg ReplayWindow.last window
      rw [ReplayWindow.accept_last] at moved
      exact moved
    refine ⟨m', rfl, ⟨?_, ?_, ?_⟩, ?_, ?_, ?_⟩
    · rw [expires]
      have now := call.now.inRange
      simp only [sessionIdleMs, maxSafeInteger]
      omega
    · exact minted ▸ kept.storable.minted
    · have bound := call.h.isLt
      have before := kept.storable.counter
      rw [last]
      omega
    · rw [highestAccepted_append, last, kept.last]
    · rw [listed, window]
      simpa [List.mem_append] using kept.exactly.accept fresh
    · rw [listed]
      exact List.nodup_append.mpr ⟨kept.once, List.nodup_singleton _, fun a member b single same =>
        unseen (List.mem_singleton.mp single ▸ same ▸ member)⟩

theorem windowKeeps_keep {c : WindowConfig} {m : HubMirror} (kept : WindowKeeps c m) :
    (windowMachine crypto).advance c .keep = c := by
  unfold Machine.advance windowMachine windowStep
  simp only [kept.held, Option.bind_some, kept.storable.kept, List.append_nil]
  exact congrArg (fun state => (⟨state, c.log⟩ : WindowConfig)) kept.held.symm

def WindowTracked (c : WindowConfig) : Prop := ∃ m, WindowKeeps c m

variable (crypto) in
theorem windowTracked_run (identity : String) (update : TimedUpdate) (inputs : List WindowInput) :
    WindowTracked ((windowMachine crypto).run (freshWindow identity update) inputs) := by
  apply Machine.run_kept
  · rintro c input ⟨m, kept⟩
    cases input with
    | keep => exact ⟨m, (windowKeeps_keep kept).symm ▸ kept⟩
    | call call => exact windowKeeps_call kept call
  · exact ⟨_, windowKeeps_start identity update⟩

/-- The calls of a run, without the writes to storage between them. -/
def callsOf (inputs : List WindowInput) : List WindowInput :=
  inputs.filter (fun | .call _ => true | .keep => false)

theorem run_callsOf {c : WindowConfig} {m : HubMirror} (kept : WindowKeeps c m) (inputs : List WindowInput) :
    (windowMachine crypto).run c inputs = (windowMachine crypto).run c (callsOf inputs) := by
  induction inputs generalizing c m with
  | nil => rfl
  | cons input rest ih =>
    cases input with
    | keep =>
      rw [Machine.run_cons, windowKeeps_keep kept]
      exact ih kept
    | call call =>
      obtain ⟨m', kept'⟩ := windowKeeps_call kept call
      simp only [callsOf, List.filter_cons_of_pos, Machine.run_cons]
      exact ih kept'

variable (crypto) in
theorem advance_call {c : WindowConfig} {m : HubMirror} (held : c.state = some m) (call : HttpCall) :
    (windowMachine crypto).advance c (.call call) =
      match verdict crypto m call with
      | .ok m' => ⟨some m', c.log ++ [⟨call.h.toNat, none⟩]⟩
      | .error refusal => ⟨c.state, c.log ++ [⟨call.h.toNat, some refusal⟩]⟩ := by
  unfold Machine.advance windowMachine windowStep
  simp only [held]
  cases verdict crypto m call <;> rfl

/-- The window after a run of calls from a fresh mirror. Each counter was accepted once at most, a new one under a
valid MAC is accepted exactly above the highest or fewer than the window below it, a refusal changes nothing, and so
does storage. -/
structure WindowExact (crypto : Crypto) (start : WindowConfig) (inputs : List WindowInput) (c : WindowConfig) :
    Prop where
  once : (acceptedCounters c.log).Nodup
  accepts : ∀ m, c.state = some m → ∀ call, m.isLive call.now.ms = true → ValidMac crypto m call →
    1 ≤ call.h.toNat → call.h.toNat ∉ acceptedCounters c.log →
      (((windowMachine crypto).run start (inputs ++ [.call call])).log = c.log ++ [⟨call.h.toNat, none⟩] ↔
        highestAccepted c.log < call.h.toNat ∨ highestAccepted c.log - call.h.toNat < httpReplayWindow)
  refused : ∀ call refusal,
    ((windowMachine crypto).run start (inputs ++ [.call call])).log = c.log ++ [⟨call.h.toNat, some refusal⟩] →
      ((windowMachine crypto).run start (inputs ++ [.call call])).state = c.state
  answered : ∀ call, ∃ refused,
    ((windowMachine crypto).run start (inputs ++ [.call call])).log = c.log ++ [⟨call.h.toNat, refused⟩]
  stored : c = (windowMachine crypto).run start (callsOf inputs)

theorem http_window_exact (crypto : Crypto) (identity : String) (update : TimedUpdate) (inputs : List WindowInput) :
    WindowExact crypto (freshWindow identity update) inputs
      ((windowMachine crypto).run (freshWindow identity update) inputs) := by
  obtain ⟨m, kept⟩ := windowTracked_run crypto identity update inputs
  have next (call : HttpCall) : (windowMachine crypto).run (freshWindow identity update) (inputs ++ [.call call]) =
      (windowMachine crypto).advance ((windowMachine crypto).run (freshWindow identity update) inputs) (.call call) := by
    rw [Machine.run_append]
    rfl
  have told (call : HttpCall) := advance_call crypto kept.held call
  refine ⟨kept.once, ?_, ?_, ?_, run_callsOf (windowKeeps_start identity update) inputs⟩
  · intro m' held call live valid counted unseen
    obtain rfl : m = m' := Option.some.inj (kept.held.symm.trans held)
    have fresh := verdict_isOk_iff live valid
    rw [kept.exactly.fresh_iff] at fresh
    have last : m.window.last = highestAccepted _ := kept.last
    rw [last] at fresh
    rw [next]
    cases answer : verdict crypto m call with
    | ok m' =>
      have placed := (fresh.mp ⟨m', answer⟩).2.2
      rw [told, answer]
      simpa [httpReplayWindow] using placed
    | error refusal =>
      have misplaced : ¬ (highestAccepted _ < call.h.toNat ∨ highestAccepted _ - call.h.toNat < 64) := fun placed => by
        obtain ⟨m', ok⟩ := fresh.mpr ⟨by omega, unseen, placed⟩
        cases answer.symm.trans ok
      rw [told, answer]
      simpa [httpReplayWindow] using misplaced
  · intro call refusal logged
    rw [next, told] at logged ⊢
    cases answer : verdict crypto m call with
    | ok m' => simp [answer] at logged
    | error refusal => rfl
  · intro call
    rw [next, told]
    cases answer : verdict crypto m call with
    | ok m' => exact ⟨none, rfl⟩
    | error refusal => exact ⟨some refusal, rfl⟩

end MessageRelay.Lane
