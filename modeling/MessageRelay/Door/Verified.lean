import MessageRelay.Door.AtRest

/-! What a saved place stands for. Every root before it was answered, for the object of the state, so a request that
goes on from it and meets no other answer has all of them. -/

namespace MessageRelay.Door
open MessageRelay.Library

theorem dedupAdjacent_sublist {α : Type} [DecidableEq α] (l : List α) : (dedupAdjacent l).Sublist l := by
  fun_induction dedupAdjacent l with
  | case1 a rest ih => exact ih.cons a
  | case2 a b rest different ih => exact ih.cons_cons a
  | case3 rest => exact List.Sublist.refl _

theorem mem_dedupAdjacent {α : Type} [DecidableEq α] {a : α} {l : List α} : a ∈ dedupAdjacent l ↔ a ∈ l := by
  fun_induction dedupAdjacent l with
  | case1 b rest ih => simp [ih]
  | case2 b c rest different ih => rw [List.mem_cons, ih, ← List.mem_cons]
  | case3 rest => rfl

section
variable {Bytes Cursor Slice Hash : Type} [LinearOrder Hash] (reader : Reader Bytes Cursor Slice Hash)
  {cursor : Cursor}

theorem mem_rootsOf {r : Nat × Hash} : r ∈ rootsOf reader cursor ↔ r ∈ reader.roots cursor := by
  rw [rootsOf, mem_dedupAdjacent, List.mem_map]
  constructor
  · rintro ⟨key, member, rfl⟩
    rw [List.mem_insertionSort, List.mem_map] at member
    obtain ⟨r, member, rfl⟩ := member
    exact member
  · intro member
    refine ⟨toLex r, ?_, rfl⟩
    rw [List.mem_insertionSort]
    exact List.mem_map_of_mem member

variable (cursor) in
theorem rootsOf_sorted : (rootsOf reader cursor).Pairwise (fun a b => a.1 ≤ b.1) := by
  apply List.Pairwise.sublist (dedupAdjacent_sublist _)
  rw [List.pairwise_map]
  apply (List.pairwise_insertionSort (· ≤ ·) ((reader.roots cursor).map toLex)).imp
  intro a b le
  rcases Prod.Lex.le_iff.mp le with below | ⟨same, -⟩
  · exact below.le
  · exact same.le

variable (cursor) in
theorem length_rootsOf_le : (rootsOf reader cursor).length ≤ (reader.roots cursor).length := by
  apply (dedupAdjacent_sublist _).length_le.trans
  rw [List.length_map, List.length_insertionSort, List.length_map]

end

section
variable {Hash : Type} {displayHex : Hash → String} {headers : Nat → Except String String} {satoshis start : Nat}
  {lookups : Option Nat} {roots : List (Nat × Hash)}

theorem rootsLookedUp_in_range (nonempty : roots ≠ []) (small : ∀ r ∈ roots, r.1 < 2 ^ 32) :
    rootsLookedUp displayHex headers roots start lookups = lookedUp displayHex headers lookups ∅ (roots.drop start) := by
  have last := List.getLast?_eq_some_getLast nonempty
  rw [rootsLookedUp, last]
  simp only
  rw [if_neg (Nat.not_le.mpr (small _ (List.getLast_mem nonempty))), heights_in_range small]

/-- Sorted roots that come to more than a refusal are there, and in range. -/
theorem rootsWord_cases (satoshis start : Nat) (sorted : roots.Pairwise (fun a b => a.1 ≤ b.1))
    (lookups : Option Nat) :
    (∃ reason, rootsWord displayHex headers satoshis roots start lookups = .word (.unverifiable reason) none) ∨
      (rootsWord displayHex headers satoshis roots start lookups =
          askRoots displayHex headers satoshis lookups start ∅ none (roots.drop start) ∧
        rootsLookedUp displayHex headers roots start lookups =
          lookedUp displayHex headers lookups ∅ (roots.drop start)) := by
  by_cases past : ∃ r ∈ roots, 2 ^ 32 ≤ r.1
  · left
    obtain ⟨height, answer⟩ := rootsWord_past displayHex headers satoshis sorted past
    exact ⟨_, answer start lookups⟩
  · have small : ∀ r ∈ roots, r.1 < 2 ^ 32 := fun r member => Nat.lt_of_not_le (fun high => past ⟨r, member, high⟩)
    cases empty : roots with
    | nil => exact .inl ⟨_, rfl⟩
    | cons first others =>
      have nonempty : roots ≠ [] := by simp [empty]
      rw [← empty]
      exact .inr ⟨rootsWord_in_range nonempty small start lookups, rootsLookedUp_in_range nonempty small⟩

/-- `Verified` is the word only with every root from the place on carried by an answer of this request. -/
theorem rootsWord_verified {paid : Nat} {failedAt : Option Nat} (sorted : roots.Pairwise (fun a b => a.1 ≤ b.1))
    (verified : rootsWord displayHex headers satoshis roots start lookups = .word (.verified paid) failedAt) :
    paid = satoshis ∧ failedAt = none ∧ ∀ r ∈ roots.drop start,
      Carried displayHex headers r ∧ r.1 ∈ rootsLookedUp displayHex headers roots start lookups := by
  rcases rootsWord_cases satoshis start sorted lookups with ⟨reason, refused⟩ | ⟨word, heights⟩
  · rw [refused] at verified
    cases verified
  · rw [word] at verified
    obtain ⟨-, same, unfailed, all⟩ := askRoots_verified verified
    refine ⟨same, unfailed, fun r member => ?_⟩
    obtain ⟨carried, known⟩ := all r member
    rw [heights]
    exact ⟨carried, known.resolve_left (by simp)⟩

/-- The roots before a place to come back to were before the one it started from, or are carried by an answer of this
request. -/
theorem rootsWord_place {place : Nat} (sorted : roots.Pairwise (fun a b => a.1 ≤ b.1))
    (back : rootsWord displayHex headers satoshis roots start lookups = .paused place ∨
      ∃ word, rootsWord displayHex headers satoshis roots start lookups = .word word (some place)) :
    place < roots.length ∧ ∀ r ∈ roots.take place, r ∈ roots.take start ∨
      Carried displayHex headers r ∧ r.1 ∈ rootsLookedUp displayHex headers roots start lookups := by
  rcases rootsWord_cases satoshis start sorted lookups with ⟨reason, refused⟩ | ⟨word, heights⟩
  · rw [refused] at back
    rcases back with paused | ⟨word, failed⟩
    · cases paused
    · cases failed
  · rw [word] at back
    obtain ⟨front, next, later, rest, rfl, all⟩ := askRoots_place back
    have whole : roots = roots.take start ++ (front ++ next :: later) := by
      rw [← rest, List.take_append_drop]
    have inside : start ≤ roots.length := by
      by_contra outside
      rw [List.drop_eq_nil_of_le (by omega)] at rest
      simp at rest
    have first : (roots.take start).length = start := by
      rw [List.length_take, Nat.min_eq_left inside]
    refine ⟨?_, fun r member => ?_⟩
    · have total := congrArg List.length whole
      simp only [List.length_append, first, List.length_cons] at total
      omega
    · rw [List.take_add, rest, List.take_left, List.mem_append] at member
      rcases member with before | member
      · exact .inl before
      · obtain ⟨carried, known⟩ := all r member
        rw [heights]
        exact .inr ⟨carried, known.resolve_left (by simp)⟩

end

/-! Readings of one object's bytes, over as many requests as they take. -/

section
variable {Bytes Cursor Slice Hash : Type} (reader : Reader Bytes Cursor Slice Hash)

/-- Where a pass over these bytes can stand: at the start, or where it paused. -/
inductive Reached (object : Bytes) (pass : Pass) : Option Cursor → Prop
  | start : Reached object pass none
  | paused {start : Option Cursor} {slice : Slice} {cursor : Cursor} (before : Reached object pass start)
      (here : reader.read start pass object slice = .paused cursor) : Reached object pass (some cursor)

/-- The pass over these bytes ended with this cursor. -/
def Ends (object : Bytes) (pass : Pass) (cursor : Cursor) : Prop :=
  ∃ start slice, Reached reader object pass start ∧ reader.read start pass object slice = .valid cursor

/-- The reader does what it says: a reading for the scripts that ends holds the object's roots, and a cursor is read
back from its bytes. A `Vec` has fewer than 2^32 elements. -/
structure Reader.Correct (objectRoots : Bytes → Set (Nat × Hash)) : Prop where
  roots : ∀ object cursor, Ends reader object .scripts cursor → ∀ r, r ∈ reader.roots cursor ↔ r ∈ objectRoots object
  saves : ∀ cursor, reader.codec.fromBinary (reader.codec.toBinary cursor) = some cursor
  counts : ∀ cursor, (reader.roots cursor).length < 2 ^ 32

/-- The output was judged on these bytes, under these terms. -/
def Paid [DecidableEq Hash] (object : Bytes) (terms : Terms) (paid : Hash × Nat) : Prop :=
  ∃ pass cursor, Ends reader object pass cursor ∧ paidBy reader cursor terms object = .ok (.ok paid)

theorem wordPaid_ne_verified {txid : Hash} {word other : PaymentVerdict} (refused : wordPaid txid word = .error other)
    (satoshis : Nat) : other ≠ .verified satoshis := by
  rintro rfl
  cases word <;> cases refused

/-- A word that refuses the output is not `Verified`. -/
theorem paidBy_refused [DecidableEq Hash] {cursor : Cursor} {terms : Terms} {object : Bytes} {word : PaymentVerdict}
    (refused : paidBy reader cursor terms object = .ok (.error word)) (satoshis : Nat) : word ≠ .verified satoshis := by
  unfold paidBy at refused
  cases found : reader.tipOf cursor with
  | error reason => simp [found, bind, Except.bind] at refused
  | ok tip =>
    cases tip with
    | none =>
      simp only [found, bind, Except.bind, pure, Except.pure, Except.ok.injEq, Except.error.injEq] at refused
      simp [← refused]
    | some tip =>
      simp only [found, bind, Except.bind, pure, Except.pure] at refused
      cases raw : subjectRaw reader.sha256d ((reader.stream object).drop tip.start) tip.txid with
      | error reason => simp [raw] at refused
      | ok raw' =>
        cases proof : tip.proof with
        | none =>
          simp only [raw, proof, Except.ok.injEq] at refused
          exact wordPaid_ne_verified refused satoshis
        | some place =>
          cases bump : reader.bumpBytes object place with
          | error reason => simp [raw, proof, bump, Except.map] at refused
          | ok bytes =>
            simp only [raw, proof, bump, Except.map, Except.ok.injEq] at refused
            exact wordPaid_ne_verified refused satoshis

variable {reader} in
/-- What is paid is paid by bytes of the object that hash to the txid. -/
theorem Paid.subject [DecidableEq Hash] {object : Bytes} {terms : Terms} {txid : Hash} {satoshis : Nat}
    (paid : Paid reader object terms (txid, satoshis)) :
    ∃ raw proof, raw <:+: reader.stream object ∧ reader.sha256d raw = txid ∧
      reader.outputWord raw proof terms = .verified satoshis := by
  obtain ⟨pass, cursor, -, judged⟩ := paid
  unfold paidBy at judged
  cases found : reader.tipOf cursor with
  | error reason => simp [found, bind, Except.bind] at judged
  | ok tip =>
    cases tip with
    | none => simp [found, bind, Except.bind, pure, Except.pure] at judged
    | some tip =>
      simp only [found, bind, Except.bind, pure, Except.pure] at judged
      cases back : subjectRaw reader.sha256d ((reader.stream object).drop tip.start) tip.txid with
      | error reason => simp [back] at judged
      | ok raw =>
        obtain ⟨hashes, front⟩ := subjectRaw_hash _ back
        have inside : raw <:+: reader.stream object := front.isInfix.trans (List.drop_suffix _ _).isInfix
        have said (proof : Option (List UInt8))
            (same : wordPaid tip.txid (reader.outputWord raw proof terms) = .ok (txid, satoshis)) :
            reader.sha256d raw = txid ∧ reader.outputWord raw proof terms = .verified satoshis := by
          cases word : reader.outputWord raw proof terms with
          | verified other =>
            rw [word] at same
            cases same
            exact ⟨hashes, rfl⟩
          | _ => simp [word, wordPaid] at same
        cases proof : tip.proof with
        | none =>
          simp only [back, proof, Except.ok.injEq] at judged
          exact ⟨raw, none, inside, said none judged⟩
        | some place =>
          cases bump : reader.bumpBytes object place with
          | error reason => simp [back, proof, bump, Except.map] at judged
          | ok bytes =>
            simp only [back, proof, bump, Except.map, Except.ok.injEq] at judged
            exact ⟨raw, some bytes, inside, said (some bytes) judged⟩

/-- A request that read this stamp was answered that the root is carried. -/
def Answered (log : List (Event Hash)) (stamp : Stamp) (r : Nat × Hash) : Prop :=
  ∃ carried, .answered stamp r.1 (.ok carried) ∈ log ∧ eqIgnoreAsciiCase carried (reader.displayHex r.2) = true

variable {reader} in
theorem Answered.mono {log : List (Event Hash)} {stamp : Stamp} {r : Nat × Hash}
    (answered : Answered reader log stamp r)
    (later : List (Event Hash)) : Answered reader (log ++ later) stamp r := by
  obtain ⟨carried, member, same⟩ := answered
  exact ⟨carried, List.mem_append_left _ member, same⟩

variable [LinearOrder Hash] (content : Stamp → Bytes)

/-- The roots before the place are answered. -/
def AskedTo (log : List (Event Hash)) (stamp : Stamp) (cursor : Cursor) (place : Nat) : Prop :=
  Ends reader (content stamp) .scripts cursor ∧ ∀ r ∈ (rootsOf reader cursor).take place, Answered reader log stamp r

def RestSound (log : List (Event Hash)) (rest : Rest Cursor) : Prop :=
  match rest.phase with
  | .structural => Reached reader (content rest.stamp) .structural (some rest.cursor)
  | .scripts => Reached reader (content rest.stamp) .scripts (some rest.cursor)
  | .roots => AskedTo reader content log rest.stamp rest.cursor (rest.rootsAsked.toNat % 2 ^ 32)

/-- Whatever the saved bytes are read as. -/
def StateSound (log : List (Event Hash)) (state : Option (List UInt8)) : Prop :=
  ∀ rest ∈ state.bind (Rest.fromBinary reader.codec), RestSound reader content log rest

variable (objectRoots : Bytes → Set (Nat × Hash))

/-- `Verified` has every root of the object answered before it, and its output judged under its terms. -/
def WordSound (log : List (Event Hash)) (stamp : Stamp) (terms : Terms) (word : PaymentVerdict)
    (subject : Option Hash) : Prop :=
  ∀ satoshis, word = .verified satoshis → (∀ r ∈ objectRoots (content stamp), Answered reader log stamp r) ∧
    ∃ txid, subject = some txid ∧ Paid reader (content stamp) terms (txid, satoshis)

def TaskSound (log : List (Event Hash)) : Task Cursor Hash → Prop
  | .stamping .. => True
  | .loading _ => True
  | .reading call pass start known =>
    Reached reader (content call.stamp) pass start ∧ ∀ paid ∈ known, Paid reader (content call.stamp) call.terms paid
  | .judgingStructure call cursor _ => Ends reader (content call.stamp) .structural cursor
  | .judgingRoots call cursor rootsAsked _ => AskedTo reader content log call.stamp cursor rootsAsked
  | .rooting call cursor rootsAsked paid =>
    AskedTo reader content log call.stamp cursor rootsAsked ∧ Paid reader (content call.stamp) call.terms paid
  | .saving _ rest word => RestSound reader content log rest ∧ ∀ satoshis, word ≠ some (.verified satoshis)
  | .clearing call word subject => WordSound reader content objectRoots log call.stamp call.terms word subject
  | .finished => True

/-- What is asked of an event: a `Verified` that was answered is sound for the log before it. -/
def EventSound (before : List (Event Hash)) : Event Hash → Prop
  | .done stamp terms word subject =>
    ∀ satoshis, word = .verified satoshis →
      ∃ read, stamp = some read ∧ WordSound reader content objectRoots before read terms word subject
  | _ => True

variable {reader content objectRoots} {log : List (Event Hash)}

theorem AskedTo.mono {stamp : Stamp} {cursor : Cursor} {place : Nat}
    (asked : AskedTo reader content log stamp cursor place) (later : List (Event Hash)) :
    AskedTo reader content (log ++ later) stamp cursor place :=
  ⟨asked.1, fun r member => (asked.2 r member).mono later⟩

theorem RestSound.mono {rest : Rest Cursor} (sound : RestSound reader content log rest) (later : List (Event Hash)) :
    RestSound reader content (log ++ later) rest := by
  unfold RestSound at sound ⊢
  cases phase : rest.phase with
  | structural => simpa [phase] using sound
  | scripts => simpa [phase] using sound
  | roots =>
    simp only [phase] at sound ⊢
    exact sound.mono later

theorem StateSound.mono {state : Option (List UInt8)} (sound : StateSound reader content log state)
    (later : List (Event Hash)) : StateSound reader content (log ++ later) state :=
  fun rest read => (sound rest read).mono later

theorem WordSound.mono {stamp : Stamp} {terms : Terms} {word : PaymentVerdict} {subject : Option Hash}
    (sound : WordSound reader content objectRoots log stamp terms word subject) (later : List (Event Hash)) :
    WordSound reader content objectRoots (log ++ later) stamp terms word subject := by
  intro satoshis verified
  obtain ⟨roots, paid⟩ := sound satoshis verified
  exact ⟨fun r member => (roots r member).mono later, paid⟩

theorem TaskSound.mono {task : Task Cursor Hash} (sound : TaskSound reader content objectRoots log task)
    (later : List (Event Hash)) : TaskSound reader content objectRoots (log ++ later) task := by
  cases task with
  | stamping | loading | reading | judgingStructure | finished => exact sound
  | judgingRoots => exact AskedTo.mono sound later
  | rooting => exact ⟨sound.1.mono later, sound.2⟩
  | saving => exact ⟨sound.1.mono later, sound.2⟩
  | clearing => exact WordSound.mono sound later

/-- A saved state is read back as it was, or not at all. -/
theorem StateSound.saved (correct : reader.Correct objectRoots) {rest : Rest Cursor}
    (sound : RestSound reader content log rest) : StateSound reader content log (some (rest.toBinary reader.codec)) := by
  intro other read
  rw [Option.bind_some, Rest.fromBinary_toBinary reader.codec rest (correct.saves rest.cursor)] at read
  split at read
  · cases read
  · cases read
    exact sound

theorem stateSound_none : StateSound reader content log none := by
  intro rest read
  cases read

/-- What is asked of the tasks of a request that starts. -/
theorem TaskSound.enter (call : Call) {saved : Option (Rest Cursor)}
    (same : ∀ rest ∈ saved, rest.stamp = call.stamp) (sound : ∀ rest ∈ saved, RestSound reader content log rest) :
    TaskSound reader content objectRoots log (enter reader call saved) := by
  cases saved with
  | none => exact ⟨.start, by simp⟩
  | some rest =>
    have here := sound rest rfl
    have stamp := same rest rfl
    unfold RestSound at here
    unfold Door.enter
    cases phase : rest.phase with
    | structural =>
      simp only [phase, stamp] at here ⊢
      exact ⟨here, by simp⟩
    | scripts =>
      simp only [phase, stamp] at here ⊢
      exact ⟨here, by simp⟩
    | roots =>
      simp only [phase, stamp] at here ⊢
      exact here

variable (reader content objectRoots) in
/-- What is asked of a request's step: of the saved bytes, of the request, and of what it emits. -/
def StepSound (log : List (Event Hash)) (out : Option (List UInt8) × Task Cursor Hash × List (Event Hash)) : Prop :=
  StateSound reader content (log ++ out.2.2) out.1 ∧ TaskSound reader content objectRoots (log ++ out.2.2) out.2.1 ∧
    ∀ event ∈ out.2.2, EventSound reader content objectRoots log event

/-- A step that leaves the saved bytes and emits nothing. -/
theorem StepSound.quiet {state : Option (List UInt8)} {task : Task Cursor Hash}
    (saved : StateSound reader content log state) (sound : TaskSound reader content objectRoots log task) :
    StepSound reader content objectRoots log (state, task, []) := by
  simpa [StepSound] using And.intro saved sound

/-- A step that ends a request. -/
theorem StepSound.last {state : Option (List UInt8)} {event : Event Hash}
    (saved : StateSound reader content log state) (sound : EventSound reader content objectRoots log event) :
    StepSound reader content objectRoots log (state, .finished, [event]) :=
  ⟨saved.mono _, trivial, by simpa using sound⟩

theorem StepSound.failed {state : Option (List UInt8)} (saved : StateSound reader content log state) :
    StepSound reader content objectRoots log (state, .finished, [.failed]) :=
  .last saved trivial

omit [LinearOrder Hash] in
/-- A request's own answers show a root that they carry. -/
theorem answered_of_lookedUp {headers : Nat → Except String String} {heights : List Nat} {stamp : Stamp}
    {r : Nat × Hash} (carried : Carried reader.displayHex headers r) (asked : r.1 ∈ heights) :
    Answered reader (log ++ heights.map (fun height => .answered stamp height (headers height))) stamp r := by
  obtain ⟨hex, answer, same⟩ := carried
  refine ⟨hex, List.mem_append_right _ (List.mem_map.mpr ⟨r.1, asked, ?_⟩), same⟩
  rw [answer]

/-- The place a request comes back to, saved. -/
theorem AskedTo.restSound (correct : reader.Correct objectRoots) {stamp : Stamp} {cursor : Cursor}
    {headers : Nat → Except String String} {start satoshis place : Nat} {lookups : Option Nat}
    (asked : AskedTo reader content log stamp cursor start)
    (back : rootsWord reader.displayHex headers satoshis (rootsOf reader cursor) start lookups = .paused place ∨
      ∃ word, rootsWord reader.displayHex headers satoshis (rootsOf reader cursor) start lookups =
        .word word (some place)) :
    RestSound reader content (log ++ (rootsLookedUp reader.displayHex headers (rootsOf reader cursor) start lookups).map
      (fun height => .answered stamp height (headers height))) ⟨stamp, .roots, UInt64.ofNat place, cursor⟩ := by
  obtain ⟨inside, before⟩ := rootsWord_place (rootsOf_sorted reader cursor) back
  have small : place < 2 ^ 32 := inside.trans ((length_rootsOf_le reader cursor).trans_lt (correct.counts cursor))
  have index : (UInt64.ofNat place).toNat % 2 ^ 32 = place := by
    rw [UInt64.toNat_ofNat']
    omega
  refine ⟨asked.1, fun r member => ?_⟩
  simp only [index] at member
  rcases before r member with old | ⟨carried, height⟩
  · exact (asked.2 r old).mono _
  · exact answered_of_lookedUp carried height

/-- `Verified` from a place with only answered roots before it. -/
theorem AskedTo.verified (correct : reader.Correct objectRoots) {call : Call} {cursor : Cursor}
    {headers : Nat → Except String String} {start : Nat} {paid : Hash × Nat} {lookups failedAt : Option Nat}
    {word : PaymentVerdict} (asked : AskedTo reader content log call.stamp cursor start)
    (pays : Paid reader (content call.stamp) call.terms paid)
    (answer : rootsWord reader.displayHex headers paid.2 (rootsOf reader cursor) start lookups = .word word failedAt) :
    WordSound reader content objectRoots
      (log ++ (rootsLookedUp reader.displayHex headers (rootsOf reader cursor) start lookups).map
        (fun height => .answered call.stamp height (headers height)))
      call.stamp call.terms word (judged word paid.1) := by
  rintro satoshis rfl
  obtain ⟨rfl, -, later⟩ := rootsWord_verified (rootsOf_sorted reader cursor) answer
  refine ⟨fun r member => ?_, paid.1, rfl, pays⟩
  have whole : r ∈ rootsOf reader cursor :=
    (mem_rootsOf reader).mpr ((correct.roots _ cursor asked.1 r).mpr member)
  rw [← List.take_append_drop start (rootsOf reader cursor), List.mem_append] at whole
  rcases whole with before | rest
  · exact (asked.2 r before).mono _
  · obtain ⟨carried, height⟩ := later r rest
    exact answered_of_lookedUp carried height

/-- A slice of a pass: its cursor is one the pass reaches, and a finished pass is judged. -/
theorem stepTask_reading (w : World Cursor Hash) (env : Env Slice) {call : Call} {pass : Pass} {start : Option Cursor}
    {known : Option (Hash × Nat)} (saved : StateSound reader content log w.state)
    (sound : TaskSound reader content objectRoots log (.reading call pass start known)) :
    StepSound reader content objectRoots log (stepTask reader content w env (.reading call pass start known)) := by
  rw [stepTask]
  split
  · exact .failed saved
  · split
    · exact .quiet saved (fun satoshis verified => by cases verified)
    · rename_i cursor paused
      have reached : Reached reader (content call.stamp) pass (some cursor) := .paused sound.1 paused
      refine .quiet saved ⟨?_, by simp⟩
      cases pass with
      | structural => exact reached
      | scripts => exact reached
    · rename_i cursor valid
      have ends : Ends reader (content call.stamp) pass cursor := ⟨start, env.slice, sound.1, valid⟩
      cases pass with
      | structural => exact .quiet saved ends
      | scripts =>
        cases known with
        | none => exact .quiet saved ⟨ends, by simp⟩
        | some paid => exact .quiet saved ⟨⟨ends, by simp⟩, sound.2 paid rfl⟩

/-- The lookups of a request: what it saves or says stands on them and on those before. -/
theorem stepTask_rooting (correct : reader.Correct objectRoots) (w : World Cursor Hash) (env : Env Slice) {call : Call}
    {cursor : Cursor} {rootsAsked : Nat} {paid : Hash × Nat} (saved : StateSound reader content log w.state)
    (sound : TaskSound reader content objectRoots log (.rooting call cursor rootsAsked paid)) :
    StepSound reader content objectRoots log (stepTask reader content w env (.rooting call cursor rootsAsked paid)) := by
  rw [stepTask]
  have answers : ∀ heights : List Nat, ∀ event ∈ heights.map
      (fun height => Event.answered call.stamp height (env.headers height)),
      EventSound reader content objectRoots log event := by
    intro heights event member
    obtain ⟨height, -, rfl⟩ := List.mem_map.mp member
    trivial
  split
  · rename_i place paused
    exact ⟨saved.mono _, ⟨sound.1.restSound correct (.inl paused), by simp⟩, answers _⟩
  · rename_i word place failed
    refine ⟨saved.mono _, ⟨sound.1.restSound correct (.inr ⟨word, failed⟩), ?_⟩, answers _⟩
    rintro satoshis ⟨⟩
    obtain ⟨-, unfailed, -⟩ := rootsWord_verified (rootsOf_sorted reader cursor) failed
    cases unfailed
  · rename_i word answer
    exact ⟨saved.mono _, sound.1.verified correct sound.2 answer, answers _⟩

/-- One step of a sound request, on sound bytes. -/
theorem stepTask_sound (correct : reader.Correct objectRoots) (w : World Cursor Hash) (env : Env Slice)
    {task : Task Cursor Hash} (saved : StateSound reader content log w.state)
    (sound : TaskSound reader content objectRoots log task) :
    StepSound reader content objectRoots log (stepTask reader content w env task) := by
  cases task with
  | stamping terms lookups =>
    rw [stepTask]
    split
    · exact .failed saved
    · split
      · exact .last saved trivial
      · exact .quiet saved trivial
  | loading call =>
    rw [stepTask]
    split
    · exact .failed saved
    · refine .quiet saved (.enter call ?_ ?_)
      · intro rest read
        simpa using (Option.mem_filter_iff.mp read).2
      · intro rest read
        exact saved rest (Option.mem_filter_iff.mp read).1
  | reading call pass start known => exact stepTask_reading w env saved sound
  | judgingStructure call cursor opens =>
    cases opens with
    | succ opens =>
      rw [stepTask]
      split
      · exact .failed saved
      · exact .quiet saved sound
    | zero =>
      rw [stepTask]
      split
      · exact .failed saved
      · rename_i word refused
        exact .quiet saved (fun satoshis verified => absurd verified (paidBy_refused reader refused satoshis))
      · rename_i paid pays
        refine .quiet saved ⟨.start, ?_⟩
        rintro _ ⟨⟩
        exact ⟨.structural, cursor, sound, pays⟩
  | judgingRoots call cursor rootsAsked opens =>
    cases opens with
    | succ opens =>
      rw [stepTask]
      split
      · exact .failed saved
      · exact .quiet saved sound
    | zero =>
      rw [stepTask]
      split
      · exact .failed saved
      · rename_i word refused
        exact .quiet saved (fun satoshis verified => absurd verified (paidBy_refused reader refused satoshis))
      · rename_i paid pays
        exact .quiet saved ⟨sound, .scripts, cursor, sound.1, pays⟩
  | rooting call cursor rootsAsked paid => exact stepTask_rooting correct w env saved sound
  | saving call rest word =>
    rw [stepTask]
    have written : StateSound reader content log (some (rest.toBinary reader.codec)) := .saved correct sound.1
    split
    · split
      · exact .failed written
      · exact .failed saved
    · refine .last written ?_
      cases word with
      | none => trivial
      | some word =>
        rintro satoshis rfl
        exact absurd rfl (sound.2 satoshis)
  | clearing call word subject =>
    rw [stepTask]
    split
    · split
      · exact .failed stateSound_none
      · exact .failed saved
    · exact .last stateSound_none (fun satoshis verified => ⟨call.stamp, rfl, sound⟩)
  | finished => exact .quiet saved trivial

variable (reader content objectRoots) in
/-- Sound bytes, sound requests, and a sound log. -/
structure WorldSound (c : Config (World Cursor Hash) (Event Hash)) : Prop where
  state : StateSound reader content c.log c.state.state
  tasks : ∀ task ∈ c.state.tasks, TaskSound reader content objectRoots c.log task
  log : Preceded (EventSound reader content objectRoots) c.log

theorem EventSound.mono (before later : List (Event Hash)) (event : Event Hash)
    (sound : EventSound reader content objectRoots before event) :
    EventSound reader content objectRoots (before ++ later) event := by
  cases event with
  | done stamp terms word subject =>
    intro satoshis verified
    obtain ⟨read, same, word⟩ := sound satoshis verified
    exact ⟨read, same, word.mono later⟩
  | answered | pending | notFound | failed => trivial

/-- What the world emits beside its requests. -/
theorem WorldSound.emits {c : Config (World Cursor Hash) (Event Hash)} {w : World Cursor Hash}
    {events : List (Event Hash)} (sound : WorldSound reader content objectRoots c) (state : w.state = c.state.state)
    (tasks : ∀ task ∈ w.tasks, TaskSound reader content objectRoots c.log task)
    (each : ∀ event ∈ events, EventSound reader content objectRoots c.log event) :
    WorldSound reader content objectRoots ⟨w, c.log ++ events⟩ where
  state := by
    rw [state]
    exact sound.state.mono events
  tasks task member := (tasks task member).mono events
  log := sound.log.append EventSound.mono each

theorem WorldSound.advance (correct : reader.Correct objectRoots) (c : Config (World Cursor Hash) (Event Hash))
    (input : Input Slice) (sound : WorldSound reader content objectRoots c) :
    WorldSound reader content objectRoots ((doors reader content).advance c input) := by
  cases input with
  | upload stamp => exact sound.emits rfl sound.tasks (by simp [doors])
  | remove => exact sound.emits rfl sound.tasks (by simp [doors])
  | start terms lookups headerService =>
    cases headerService with
    | false =>
      refine sound.emits rfl sound.tasks ?_
      rintro event (_ | ⟨_, ⟨⟩⟩) satoshis verified
      cases verified
    | true =>
      refine sound.emits rfl (fun task member => ?_) (by simp [doors])
      rcases List.mem_append.mp member with old | new
      · exact sound.tasks task old
      · cases List.mem_singleton.mp new
        trivial
  | advance i env =>
    cases found : c.state.tasks[i]? with
    | none =>
      have idle : (doors reader content).advance c (.advance i env) = c := by
        simp [Machine.advance, doors, found]
      rwa [idle]
    | some task =>
      have member : task ∈ c.state.tasks := List.mem_of_getElem? found
      obtain ⟨state, next, each⟩ := stepTask_sound correct c.state env sound.state (sound.tasks task member)
      have step : (doors reader content).advance c (.advance i env) =
          ⟨{ c.state with
              state := (stepTask reader content c.state env task).1,
              tasks := c.state.tasks.set i (stepTask reader content c.state env task).2.1 },
            c.log ++ (stepTask reader content c.state env task).2.2⟩ := by
        simp [Machine.advance, doors, found]
      rw [step]
      refine ⟨state, fun other here => ?_, sound.log.append EventSound.mono each⟩
      rcases List.mem_or_eq_of_mem_set here with old | rfl
      · exact (sound.tasks other old).mono _
      · exact next

variable (reader content) in
/-- `Verified` is answered only with every root of the object carried by an answer that a request on the same stamp
was given, and with the output judged on those bytes under the request's own terms. -/
theorem verified_at_rest_sound (correct : reader.Correct objectRoots) (object : Option Stamp)
    (inputs : List (Input Slice)) (before after : List (Event Hash)) (stamp : Option Stamp) (terms : Terms)
    (satoshis : Nat) (subject : Option Hash)
    (answered : ((doors reader content).run ⟨⟨object, none, []⟩, []⟩ inputs).log =
      before ++ .done stamp terms (.verified satoshis) subject :: after) :
    ∃ read txid, stamp = some read ∧ subject = some txid ∧
      (∀ r ∈ objectRoots (content read), Answered reader before read r) ∧
      Paid reader (content read) terms (txid, satoshis) := by
  have start : WorldSound reader content objectRoots ⟨⟨object, none, []⟩, []⟩ :=
    ⟨stateSound_none, by simp, preceded_nil⟩
  have sound := (doors reader content).run_kept (fun c input => WorldSound.advance correct c input) start inputs
  obtain ⟨read, same, word⟩ := sound.log before _ after answered satoshis rfl
  obtain ⟨roots, txid, named, paid⟩ := word satoshis rfl
  exact ⟨read, txid, same, named, roots, paid⟩

end

/-- A cursor at its end, its last transaction the one at the start, with no BUMP and no proven txid. -/
def endedCursor : List UInt8 :=
  newCursor ++ List.replicate 56 0 ++ [1] ++ leBytes 32 5 ++ leBytes 8 0 ++ [0, 0]

/-- A reader of one object with two roots, whose subject has no inputs and no outputs and pays 40. -/
def twoRoots : Reader Unit Unit Unit Nat where
  codec := { toBinary := fun _ => endedCursor, fromBinary := fun _ => some () }
  read _ _ _ _ := .valid ()
  roots _ := [(8, 1), (7, 0)]
  stream _ := [1, 0, 0, 0, 0, 0, 0, 0, 0, 0]
  hash := ofLeBytes
  sha256d raw := raw.length / 2
  bumpBytes _ _ := .ok []
  outputWord _ _ terms := if terms.requiredSatoshis ≤ 40 then .verified 40 else .underpaid 40
  displayHex hash := if hash = 0 then "aa" else "bb"

theorem twoRoots_correct : twoRoots.Correct (fun _ => {(7, 0), (8, 1)}) where
  roots _ _ _ r := by simp [twoRoots, or_comm]
  saves _ := rfl
  counts _ := by simp [twoRoots]

def oneUpload : Stamp := ⟨100, "e1", by decide⟩

def fairTerms : Terms := ⟨0, [], 30⟩

/-- Both roots are carried. -/
def wellServed : Env Unit := ⟨false, false, (), fun height => if height = 7 then .ok "AA" else .ok "bb"⟩

/-- One request from its stamp to its word. -/
def oneRequest : List (Input Unit) :=
  [.upload oneUpload, .start fairTerms 2 true] ++ List.replicate 8 (.advance 0 wellServed)

theorem verified_in_one_request :
    ∃ before, ((doors twoRoots (fun _ => ())).run ⟨⟨none, none, []⟩, []⟩ oneRequest).log =
        before ++ .done (some oneUpload) fairTerms (.verified 40) (some 5) :: [] ∧
      (∀ r ∈ ({(7, 0), (8, 1)} : Set (Nat × Nat)), Answered twoRoots before oneUpload r) ∧
      Paid twoRoots () fairTerms (5, 40) := by
  have log : ((doors twoRoots (fun _ => ())).run ⟨⟨none, none, []⟩, []⟩ oneRequest).log =
      [.answered oneUpload 7 (.ok "AA"), .answered oneUpload 8 (.ok "bb")] ++
        .done (some oneUpload) fairTerms (.verified 40) (some 5) :: [] := by
    decide +kernel
  obtain ⟨read, txid, same, named, roots, paid⟩ :=
    verified_at_rest_sound twoRoots (fun _ => ()) twoRoots_correct none oneRequest _ [] _ _ _ _ log
  cases same
  cases named
  exact ⟨_, log, roots, paid⟩

end MessageRelay.Door
