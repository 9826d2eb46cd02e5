import MessageRelay.Door.Roots
import MessageRelay.Door.Tip
import MessageRelay.Library.History

/-! The door on an object at rest, for any number of requests on one key, interleaved at their store accesses, with the
object uploaded again between them. The reader of the bytes is a parameter. A request goes on from the state another
one saved, and the state is of one stamp. -/

namespace MessageRelay.Door
open MessageRelay.Library

structure Terms where
  outputIndex : Nat
  expectedScript : List UInt8
  requiredSatoshis : Nat
  deriving DecidableEq

inductive Pass where
  | structural
  | scripts
  deriving DecidableEq, Repr

/-- What one reading came to. -/
inductive Reading (Cursor : Type) where
  | valid (cursor : Cursor)
  | refused (reason : UnverifiableReason)
  | paused (cursor : Cursor)

/-- The reader of the bytes: a pass from a cursor or from the start, for a slice of the work; what its cursors hold; the
stream of an object; its hashes; the BUMP read back; and the word on the output. -/
structure Reader (Bytes Cursor Slice Hash : Type) where
  codec : CursorCodec Cursor
  read : Option Cursor → Pass → Bytes → Slice → Reading Cursor
  roots : Cursor → List (Nat × Hash)
  stream : Bytes → List UInt8
  hash : List UInt8 → Hash
  sha256d : List UInt8 → Hash
  bumpBytes : Bytes → Nat → Except String (List UInt8)
  outputWord : List UInt8 → Option (List UInt8) → Terms → PaymentVerdict
  displayHex : Hash → String

/-- Equal neighbours, once. -/
def dedupAdjacent {α : Type} [DecidableEq α] : List α → List α
  | a :: b :: rest => if a = b then dedupAdjacent (b :: rest) else a :: dedupAdjacent (b :: rest)
  | rest => rest

section
variable {Bytes Cursor Slice Hash : Type} (reader : Reader Bytes Cursor Slice Hash)

def Reader.tipOf (cursor : Cursor) : Except String (Option (Tip Hash)) :=
  tipIn reader.hash (reader.codec.toBinary cursor)

/-- The roots of a reading, each once, lowest height first. -/
def rootsOf [LinearOrder Hash] (cursor : Cursor) : List (Nat × Hash) :=
  dedupAdjacent ((((reader.roots cursor).map toLex).insertionSort (· ≤ ·)).map ofLex)

/-- The word as what is paid or as what refuses it. -/
def wordPaid {Hash : Type} (txid : Hash) : PaymentVerdict → Except PaymentVerdict (Hash × Nat)
  | .verified satoshis => .ok (txid, satoshis)
  | other => .error other

/-- The output word on the subject: what is paid, or the word that refuses it. -/
def paidBy [DecidableEq Hash] (cursor : Cursor) (terms : Terms) (object : Bytes) :
    Except String (Except PaymentVerdict (Hash × Nat)) := do
  match ← reader.tipOf cursor with
  | none => return .error (.unverifiable .noTransaction)
  | some tip =>
    let raw ← subjectRaw reader.sha256d ((reader.stream object).drop tip.start) tip.txid
    let proof ← match tip.proof with
      | some place => (reader.bumpBytes object place).map some
      | none => .ok none
    return wordPaid tip.txid (reader.outputWord raw proof terms)

/-- How often the object is opened for that: for the subject, and twice for a BUMP. -/
def opensOf (cursor : Cursor) : Nat :=
  match reader.tipOf cursor with
  | .ok (some tip) => if tip.proof.isSome then 3 else 1
  | _ => 0

end

/-- A request that has read the object's stamp. -/
structure Call where
  terms : Terms
  lookups : Nat
  stamp : Stamp

/-- A request between two store accesses, by what it does next. `known` is the output word of this request. -/
inductive Task (Cursor Hash : Type) where
  | stamping (terms : Terms) (lookups : Nat)
  | loading (call : Call)
  | reading (call : Call) (pass : Pass) (start : Option Cursor) (known : Option (Hash × Nat))
  | judgingStructure (call : Call) (cursor : Cursor) (opens : Nat)
  | judgingRoots (call : Call) (cursor : Cursor) (rootsAsked : Nat) (opens : Nat)
  | rooting (call : Call) (cursor : Cursor) (rootsAsked : Nat) (paid : Hash × Nat)
  | saving (call : Call) (rest : Rest Cursor) (word : Option PaymentVerdict)
  | clearing (call : Call) (word : PaymentVerdict) (subject : Option Hash)
  | finished

/-- The key's object by its stamp, the bytes saved beside it, and the requests. -/
structure World (Cursor Hash : Type) where
  object : Option Stamp
  state : Option (List UInt8)
  tasks : List (Task Cursor Hash)

inductive Event (Hash : Type) where
  | answered (stamp : Stamp) (height : Nat) (answer : Except String String)
  | done (stamp : Option Stamp) (terms : Terms) (word : PaymentVerdict) (subject : Option Hash)
  | pending (stamp : Stamp)
  | notFound
  | failed
  deriving DecidableEq

/-- What one step of a request meets: a failing store (whose write may have landed all the same), the slice, and the
header service. -/
structure Env (Slice : Type) where
  failed : Bool
  landed : Bool
  slice : Slice
  headers : Nat → Except String String

inductive Input (Slice : Type) where
  | upload (stamp : Stamp)
  | remove
  | start (terms : Terms) (lookups : Nat) (headerService : Bool)
  | advance (i : Nat) (env : Env Slice)

def Pass.phase : Pass → Phase
  | .structural => .structural
  | .scripts => .scripts

section
variable {Hash : Type} (displayHex : Hash → String) (headers : Nat → Except String String)

/-- The heights `askRoots` looks up, in its order. -/
def lookedUp (lookups : Option Nat) : Finset Nat → List (Nat × Hash) → List Nat
  | _, [] => []
  | asked, (height, root) :: rest =>
    if height ∉ asked ∧ lookups.any (· ≤ asked.card) then []
    else
      (if height ∈ asked then [] else [height]) ++
        match headers height with
        | .ok carried =>
          if eqIgnoreAsciiCase carried (displayHex root) then lookedUp lookups (insert height asked) rest else []
        | .error _ => lookedUp lookups (insert height asked) rest

/-- The heights `rootsWord` looks up. -/
def rootsLookedUp (roots : List (Nat × Hash)) (start : Nat) (lookups : Option Nat) : List Nat :=
  match roots.getLast? with
  | none => []
  | some (height, _) =>
    if 2 ^ 32 ≤ height then []
    else lookedUp displayHex headers lookups ∅ ((roots.drop start).map (fun r => (r.1 % 2 ^ 32, r.2)))

end

section
variable {Bytes Cursor Slice Hash : Type} [LinearOrder Hash] (reader : Reader Bytes Cursor Slice Hash)
  (content : Stamp → Bytes)

/-- Where a request starts, from the state of the object it read. A `usize` has 32 bits. -/
def enter (call : Call) : Option (Rest Cursor) → Task Cursor Hash
  | none => .reading call .structural none none
  | some rest =>
    match rest.phase with
    | .structural => .reading call .structural (some rest.cursor) none
    | .scripts => .reading call .scripts (some rest.cursor) none
    | .roots => .judgingRoots call rest.cursor (rest.rootsAsked.toNat % 2 ^ 32) (opensOf reader rest.cursor)

/-- The subject is named on `Verified` and on no other word. -/
def judged (word : PaymentVerdict) (subject : Hash) : Option Hash :=
  match word with
  | .verified _ => some subject
  | _ => none

/-- The answer of a request that saved a state: pending, or the word of a failed lookup. -/
def saved (call : Call) : Option PaymentVerdict → Event Hash
  | none => .pending call.stamp
  | some word => .done (some call.stamp) call.terms word none

/-- One step of a request: the saved bytes, the request and what it emits. -/
def stepTask (w : World Cursor Hash) (env : Env Slice) :
    Task Cursor Hash → Option (List UInt8) × Task Cursor Hash × List (Event Hash)
  | .stamping terms lookups =>
    if env.failed then (w.state, .finished, [.failed])
    else match w.object with
      | none => (w.state, .finished, [.notFound])
      | some stamp => (w.state, .loading ⟨terms, lookups, stamp⟩, [])
  | .loading call =>
    if env.failed then (w.state, .finished, [.failed])
    else (w.state, enter reader call ((w.state.bind (Rest.fromBinary reader.codec)).filter
      (fun rest => rest.stamp = call.stamp)), [])
  | .reading call pass start known =>
    -- the store hands out no bytes but those of the stamp
    if env.failed ∨ w.object ≠ some call.stamp then (w.state, .finished, [.failed])
    else match reader.read start pass (content call.stamp) env.slice with
      | .refused reason => (w.state, .clearing call (.unverifiable reason) none, [])
      | .paused cursor => (w.state, .saving call ⟨call.stamp, pass.phase, 0, cursor⟩ none, [])
      | .valid cursor =>
        match pass, known with
        | .structural, _ => (w.state, .judgingStructure call cursor (opensOf reader cursor), [])
        | .scripts, some paid => (w.state, .rooting call cursor 0 paid, [])
        | .scripts, none => (w.state, .judgingRoots call cursor 0 (opensOf reader cursor), [])
  | .judgingStructure call cursor (opens + 1) =>
    if env.failed ∨ w.object ≠ some call.stamp then (w.state, .finished, [.failed])
    else (w.state, .judgingStructure call cursor opens, [])
  | .judgingStructure call cursor 0 =>
    match paidBy reader cursor call.terms (content call.stamp) with
    | .error _ => (w.state, .finished, [.failed])
    | .ok (.error word) => (w.state, .clearing call word none, [])
    | .ok (.ok paid) => (w.state, .reading call .scripts none (some paid), [])
  | .judgingRoots call cursor rootsAsked (opens + 1) =>
    if env.failed ∨ w.object ≠ some call.stamp then (w.state, .finished, [.failed])
    else (w.state, .judgingRoots call cursor rootsAsked opens, [])
  | .judgingRoots call cursor rootsAsked 0 =>
    match paidBy reader cursor call.terms (content call.stamp) with
    | .error _ => (w.state, .finished, [.failed])
    | .ok (.error word) => (w.state, .clearing call word none, [])
    | .ok (.ok paid) => (w.state, .rooting call cursor rootsAsked paid, [])
  | .rooting call cursor rootsAsked paid =>
    let roots := rootsOf reader cursor
    let answers := (rootsLookedUp reader.displayHex env.headers roots rootsAsked (some call.lookups)).map
      (fun height => .answered call.stamp height (env.headers height))
    match rootsWord reader.displayHex env.headers paid.2 roots rootsAsked (some call.lookups) with
    | .paused place => (w.state, .saving call ⟨call.stamp, .roots, UInt64.ofNat place, cursor⟩ none, answers)
    | .word word (some place) =>
      (w.state, .saving call ⟨call.stamp, .roots, UInt64.ofNat place, cursor⟩ (some word), answers)
    | .word word none => (w.state, .clearing call word (judged word paid.1), answers)
  | .saving call rest word =>
    let state := some (rest.toBinary reader.codec)
    if env.failed then (if env.landed then state else w.state, .finished, [.failed])
    else (state, .finished, [saved call word])
  | .clearing call word subject =>
    if env.failed then (if env.landed then none else w.state, .finished, [.failed])
    else (none, .finished, [.done (some call.stamp) call.terms word subject])
  | .finished => (w.state, .finished, [])

def doors : Machine (World Cursor Hash) (Input Slice) (Event Hash) where
  step w
    | .upload stamp => ({ w with object := some stamp }, [])
    | .remove => ({ w with object := none }, [])
    | .start terms _ false => (w, [.done none terms .noHeaderService none])
    | .start terms lookups true => ({ w with tasks := w.tasks ++ [.stamping terms lookups] }, [])
    | .advance i env =>
      match w.tasks[i]? with
      | none => (w, [])
      | some task =>
        let (state, task, events) := stepTask reader content w env task
        ({ w with state := state, tasks := w.tasks.set i task }, events)

end

/-! What a request's lookups show. -/

section
variable {Hash : Type} {displayHex : Hash → String} {headers : Nat → Except String String} {satoshis : Nat}
  {lookups : Option Nat} {place : Nat} {asked : Finset Nat} {r : Nat × Hash} {rest : List (Nat × Hash)}

theorem lookedUp_going_on (asks : Asks lookups asked r.1)
    (going : Carried displayHex headers r ∨ Failing headers r) :
    lookedUp displayHex headers lookups asked (r :: rest) =
      (if r.1 ∈ asked then [] else [r.1]) ++ lookedUp displayHex headers lookups (insert r.1 asked) rest := by
  rw [lookedUp, if_neg asks]
  rcases going with ⟨hex, answer, same⟩ | ⟨reason, answer⟩
  · simp [answer, same]
  · simp [answer]

variable (displayHex headers lookups) in
/-- The root is carried, by an answer of this request or of the heights it knew. -/
def Shown (asked : Finset Nat) (rest : List (Nat × Hash)) (r : Nat × Hash) : Prop :=
  Carried displayHex headers r ∧ (r.1 ∈ asked ∨ r.1 ∈ lookedUp displayHex headers lookups asked rest)

/-- What the rest shows is shown by the whole, and so is its carried head. -/
theorem Shown.cons {other : Nat × Hash} (asks : Asks lookups asked r.1)
    (going : Carried displayHex headers r ∨ Failing headers r)
    (shown : Shown displayHex headers lookups (insert r.1 asked) rest other) :
    Shown displayHex headers lookups asked (r :: rest) other := by
  refine ⟨shown.1, ?_⟩
  rw [lookedUp_going_on asks going, List.mem_append]
  rcases shown.2 with known | later
  · rcases Finset.mem_insert.mp known with same | known
    · by_cases before : r.1 ∈ asked
      · exact .inl (same ▸ before)
      · exact .inr (.inl (by simp [before, same]))
    · exact .inl known
  · exact .inr (.inr later)

theorem Shown.head (asks : Asks lookups asked r.1) (carried : Carried displayHex headers r) :
    Shown displayHex headers lookups asked (r :: rest) r := by
  refine ⟨carried, ?_⟩
  rw [lookedUp_going_on asks (.inl carried), List.mem_append]
  by_cases before : r.1 ∈ asked
  · exact .inl before
  · exact .inr (.inl (by simp [before]))

theorem askRoots_paused (stuck : ¬ Asks lookups asked r.1) (firstFailure : Option (Nat × UnverifiableReason)) :
    askRoots displayHex headers satoshis lookups place asked firstFailure (r :: rest) =
      .paused ((firstFailure.map Prod.fst).getD place) := by
  rw [askRoots, if_pos (not_not.mp stuck)]

/-- `Verified` is the word only with every root carried. -/
theorem askRoots_verified {firstFailure : Option (Nat × UnverifiableReason)} {paid : Nat} {failedAt : Option Nat}
    (verified : askRoots displayHex headers satoshis lookups place asked firstFailure rest =
      .word (.verified paid) failedAt) :
    firstFailure = none ∧ paid = satoshis ∧ failedAt = none ∧
      ∀ other ∈ rest, Shown displayHex headers lookups asked rest other := by
  induction rest generalizing place asked firstFailure with
  | nil =>
    cases firstFailure with
    | some failure => cases verified
    | none =>
      cases verified
      simp
  | cons r rest ih =>
    by_cases asks : Asks lookups asked r.1
    · rcases answer_cases displayHex headers r with carried | mismatched | ⟨reason, answer⟩
      · rw [askRoots_carried asks carried] at verified
        obtain ⟨none, same, unfailed, all⟩ := ih verified
        refine ⟨none, same, unfailed, fun other member => ?_⟩
        rcases List.mem_cons.mp member with rfl | member
        · exact Shown.head asks carried
        · exact (all other member).cons asks (.inl carried)
      · rw [askRoots_mismatched asks mismatched] at verified
        cases verified
      · rw [askRoots_failing asks answer] at verified
        obtain ⟨none, -⟩ := ih verified
        cases firstFailure <;> cases none
    · rw [askRoots_paused asks] at verified
      cases verified

/-- A place to come back to has only carried roots before it. -/
theorem askRoots_place {firstFailure : Option (Nat × UnverifiableReason)} {p : Nat}
    (back : askRoots displayHex headers satoshis lookups place asked firstFailure rest = .paused p ∨
      ∃ word, askRoots displayHex headers satoshis lookups place asked firstFailure rest = .word word (some p)) :
    match firstFailure with
    | some failure => p = failure.1
    | none => ∃ front next later, rest = front ++ next :: later ∧ p = place + front.length ∧
      ∀ other ∈ front, Shown displayHex headers lookups asked rest other := by
  induction rest generalizing place asked firstFailure with
  | nil =>
    cases firstFailure with
    | some failure =>
      rcases back with paused | ⟨word, failed⟩
      · cases paused
      · cases failed
        rfl
    | none =>
      rcases back with paused | ⟨word, failed⟩
      · cases paused
      · cases failed
  | cons r rest ih =>
    by_cases asks : Asks lookups asked r.1
    · rcases answer_cases displayHex headers r with carried | mismatched | ⟨reason, answer⟩
      · rw [askRoots_carried asks carried] at back
        have step := ih back
        cases firstFailure with
        | some failure => exact step
        | none =>
          obtain ⟨front, next, later, rfl, rfl, all⟩ := step
          refine ⟨r :: front, next, later, rfl, by simp; omega, fun other member => ?_⟩
          rcases List.mem_cons.mp member with rfl | member
          · exact Shown.head asks carried
          · exact (all other member).cons asks (.inl carried)
      · rw [askRoots_mismatched asks mismatched] at back
        rcases back with paused | ⟨word, failed⟩
        · cases paused
        · cases failed
      · rw [askRoots_failing asks answer] at back
        have step := ih back
        cases firstFailure with
        | some failure => exact step
        | none => exact ⟨[], r, rest, rfl, step, by simp⟩
    · rw [askRoots_paused asks] at back
      rcases back with paused | ⟨word, failed⟩
      · cases paused
        cases firstFailure with
        | some failure => rfl
        | none => exact ⟨[], r, rest, rfl, rfl, by simp⟩
      · cases failed

end

end MessageRelay.Door
