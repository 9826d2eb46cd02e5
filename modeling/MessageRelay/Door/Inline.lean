import MessageRelay.Door.Verified

/-! The door on a payment in hand: the structure, the output, the scripts and the roots, in one request. The door at
rest, over as many requests as it takes and with others between them, says the same word on the same bytes. -/

namespace MessageRelay.Door
open MessageRelay.Library

/-- A word with the bytes it names, and the subject of a verified payment. -/
structure DoorVerdict (Hash : Type) where
  word : PaymentVerdict
  named : Option (Nat × String)
  subject : Option Hash

namespace DoorVerdict

variable {Hash : Type}

def of (word : PaymentVerdict) : DoorVerdict Hash := ⟨word, none, none⟩

/-- The offset and the kind of the bytes that a reading refuses. -/
def refusal (reason : UnverifiableReason) : DoorVerdict Hash :=
  ⟨.unverifiable reason,
    match reason with
    | .invalidBeef offset kind | .spendRefused offset kind | .miningContextUnavailable offset kind => some (offset, kind)
    | _ => none,
    none⟩

end DoorVerdict

section
variable {Bytes Cursor Slice Hash : Type} [LinearOrder Hash] (reader : Reader Bytes Cursor Slice Hash) (whole : Slice)

/-- The structure, and the output on the subject. `whole` is a slice that does not run out. -/
def structureAndOutput (terms : Terms) (object : Bytes) : Except String (Except (DoorVerdict Hash) (Hash × Nat)) :=
  match reader.read none .structural object whole with
  | .valid cursor => (paidBy reader cursor terms object).map (fun paid => paid.mapError .of)
  | .refused reason => .ok (.error (.refusal reason))
  | .paused _ => .error "a reading with no slice paused"

def verifyInline (terms : Terms) (object : Bytes)
    (headerService : Option (Nat → Except String String)) : Except String (DoorVerdict Hash) :=
  match headerService with
  | none => .ok (.of .noHeaderService)
  | some headers =>
    match structureAndOutput reader whole terms object with
    | .error e => .error e
    | .ok (.error refused) => .ok refused
    | .ok (.ok (txid, satoshis)) =>
      match reader.read none .scripts object whole with
      | .refused reason => .ok (.refusal reason)
      | .paused _ => .error "a reading with no slice paused"
      | .valid cursor =>
        match rootsWord reader.displayHex headers satoshis (rootsOf reader cursor) 0 none with
        | .word word _ => .ok ⟨word, none, judged word txid⟩
        | .paused _ => .error "the roots with no slice paused"

/-- A reading that goes on where one stopped comes to what the whole reading comes to, and both passes read the same
subject. -/
structure Reader.Resumes (object : Bytes) : Prop where
  refused : ∀ pass start slice reason, Reached reader object pass start →
    reader.read start pass object slice = .refused reason → reader.read none pass object whole = .refused reason
  valid : ∀ pass cursor, Ends reader object pass cursor → ∃ other, reader.read none pass object whole = .valid other ∧
    reader.roots other = reader.roots cursor ∧ reader.tipOf other = reader.tipOf cursor
  subject : ∀ early late, Ends reader object .structural early → Ends reader object .scripts late →
    reader.tipOf early = reader.tipOf late

variable {reader whole}

theorem paidBy_tip {early late : Cursor} (same : reader.tipOf early = reader.tipOf late) :
    paidBy reader early = paidBy reader late := by
  unfold paidBy
  rw [same]

theorem rootsOf_same {early late : Cursor} (same : reader.roots early = reader.roots late) :
    rootsOf reader early = rootsOf reader late := by
  rw [rootsOf, same, rootsOf]

theorem structureAndOutput_structural {terms : Terms} {object : Bytes} (resumes : reader.Resumes whole object)
    {cursor : Cursor} (ends : Ends reader object .structural cursor) :
    structureAndOutput reader whole terms object =
      (paidBy reader cursor terms object).map (fun paid => paid.mapError .of) := by
  obtain ⟨other, valid, -, tip⟩ := resumes.valid .structural cursor ends
  rw [structureAndOutput, valid, ← paidBy_tip tip]

/-- What the structure and the output come to when they hold. -/
theorem structureAndOutput_pays {terms : Terms} {object : Bytes} {paid : Hash × Nat}
    (pays : structureAndOutput reader whole terms object = .ok (.ok paid)) :
    ∃ cursor, Ends reader object .structural cursor ∧ paidBy reader cursor terms object = .ok (.ok paid) := by
  unfold structureAndOutput at pays
  split at pays
  · rename_i cursor read
    refine ⟨cursor, ⟨none, whole, .start, read⟩, ?_⟩
    rcases judged' : paidBy reader cursor terms object with e | word | paid'
    · simp [judged', Except.map] at pays
    · simp [judged', Except.map, Except.mapError] at pays
    · simpa [judged', Except.map, Except.mapError] using pays
  · cases pays
  · cases pays

/-- The word on the output does not depend on the pass whose cursor it is judged by. -/
theorem structureAndOutput_scripts {terms : Terms} {object : Bytes} (resumes : reader.Resumes whole object)
    {cursor : Cursor} (ends : Ends reader object .scripts cursor) {paid : Hash × Nat}
    (pays : structureAndOutput reader whole terms object = .ok (.ok paid)) :
    paidBy reader cursor terms object = .ok (.ok paid) := by
  obtain ⟨early, first, paying⟩ := structureAndOutput_pays pays
  rwa [← paidBy_tip (resumes.subject early cursor first ends)]

/-- What is refused with the structure or the output is not `Verified`. -/
theorem structureAndOutput_refused {terms : Terms} {object : Bytes} {verdict : DoorVerdict Hash}
    (refused : structureAndOutput reader whole terms object = .ok (.error verdict)) (satoshis : Nat) :
    verdict.word ≠ .verified satoshis := by
  unfold structureAndOutput at refused
  split at refused
  · rename_i cursor read
    rcases judged' : paidBy reader cursor terms object with e | word | paid
    · simp [judged', Except.map] at refused
    · simp only [judged', Except.map, Except.mapError, Except.ok.injEq, Except.error.injEq] at refused
      rw [← refused]
      exact paidBy_refused reader judged' satoshis
    · simp [judged', Except.map, Except.mapError] at refused
  · cases refused
    simp [DoorVerdict.refusal]
  · cases refused

/-- `Verified` in one request: the output judged on these bytes, and every root carried. -/
theorem verifyInline_verified {objectRoots : Bytes → Set (Nat × Hash)}
    (correct : reader.Correct objectRoots) {terms : Terms} {object : Bytes} {headers : Nat → Except String String}
    {satoshis : Nat} {named : Option (Nat × String)} {subject : Option Hash}
    (said : verifyInline reader whole terms object (some headers) = .ok ⟨.verified satoshis, named, subject⟩) :
    ∃ txid, subject = some txid ∧ Paid reader object terms (txid, satoshis) ∧
      ∀ r ∈ objectRoots object, Carried reader.displayHex headers r := by
  unfold verifyInline at said
  dsimp only at said
  split at said
  · cases said
  · rename_i refused judged'
    cases said
    exact absurd rfl (structureAndOutput_refused judged' satoshis)
  · rename_i txid paid pays
    split at said
    · cases said
    · cases said
    · rename_i cursor valid
      have ends : Ends reader object .scripts cursor := ⟨none, whole, .start, valid⟩
      split at said
      · rename_i word failedAt asked
        cases said
        obtain ⟨same, -, carried⟩ := rootsWord_verified (rootsOf_sorted reader cursor) asked
        obtain ⟨early, first, paying⟩ := structureAndOutput_pays pays
        refine ⟨txid, rfl, ⟨.structural, early, first, by rw [same, paying]⟩, fun r member => ?_⟩
        have root : r ∈ rootsOf reader cursor :=
          (mem_rootsOf reader).mpr ((correct.roots object cursor ends r).mpr member)
        exact (carried r (by simpa using root)).1
      · cases said

end

/-! The roots behind those that are known to be carried. -/

section
variable {Hash : Type} {displayHex : Hash → String} {headers : Nat → Except String String}

theorem rootsWord_behind {roots : List (Nat × Hash)} (sorted : roots.Pairwise (fun a b => a.1 ≤ b.1)) {place : Nat}
    (carried : ∀ r ∈ roots.take place, Carried displayHex headers r) (satoshis : Nat) {lookups : Nat}
    {word : PaymentVerdict} {failedAt : Option Nat}
    (said : rootsWord displayHex headers satoshis roots place (some lookups) = .word word failedAt) :
    ∃ failedAt, rootsWord displayHex headers satoshis roots 0 none = .word word failedAt := by
  by_cases past : ∃ r ∈ roots, 2 ^ 32 ≤ r.1
  · obtain ⟨height, answer⟩ := rootsWord_past displayHex headers satoshis sorted past
    rw [answer place (some lookups)] at said
    cases said
    exact ⟨_, answer 0 none⟩
  · have small : ∀ r ∈ roots, r.1 < 2 ^ 32 := fun r member => Nat.lt_of_not_le (fun high => past ⟨r, member, high⟩)
    cases empty : roots with
    | nil =>
      subst empty
      cases said
      exact ⟨_, rfl⟩
    | cons first others =>
      have nonempty : roots ≠ [] := by simp [empty]
      rw [← empty]
      have unlimited : rootsWord displayHex headers satoshis roots 0 none =
          askRoots displayHex headers satoshis none (roots.take place).length ∅ none (roots.drop place) := by
        rw [rootsWord_in_range nonempty small, List.drop_zero]
        conv_lhs => rw [← List.take_append_drop place roots]
        rw [askRoots_none_append 0 ∅ none carried, Nat.zero_add]
      rw [rootsWord_in_range nonempty small place] at said
      rw [unlimited]
      by_cases inside : place ≤ roots.length
      · rw [List.length_take, Nat.min_eq_left inside]
        have limited := askRoots_limited displayHex headers satoshis lookups place ∅ none (roots.drop place)
          (Nat.zero_le _)
        split at limited
        · rw [limited] at said
          exact ⟨_, said⟩
        · obtain ⟨p, paused, -⟩ := limited
          rw [paused] at said
          cases said
      · rw [List.drop_eq_nil_of_le (by omega)] at said ⊢
        cases said
        exact ⟨_, rfl⟩

end

/-! Requests on one key, all under the same terms and with one header service. -/

section
variable {Bytes Cursor Slice Hash : Type} (reader : Reader Bytes Cursor Slice Hash) (whole : Slice) [LinearOrder Hash]
  (content : Stamp → Bytes) (terms : Terms) (headers : Nat → Except String String)

/-- Every request is the same one, and the header service answers a height always alike. -/
def Input.Alike : Input Slice → Prop
  | .start asked _ _ => asked = terms
  | .advance _ env => env.headers = headers
  | _ => True

/-- The upload's structure holds and its output pays. -/
def Pays (stamp : Stamp) (paid : Hash × Nat) : Prop :=
  structureAndOutput reader whole terms (content stamp) = .ok (.ok paid)

/-- The word is the one a single request says of these bytes. -/
def Inline (stamp : Stamp) (word : PaymentVerdict) (subject : Option Hash) : Prop :=
  ∃ named, verifyInline reader whole terms (content stamp) (some headers) = .ok ⟨word, named, subject⟩

def RestAlike (rest : Rest Cursor) : Prop :=
  rest.phase ≠ .structural → ∃ paid, Pays reader whole content terms rest.stamp paid

def StateAlike (state : Option (List UInt8)) : Prop :=
  ∀ rest ∈ state.bind (Rest.fromBinary reader.codec), RestAlike reader whole content terms rest

def TaskAlike : Task Cursor Hash → Prop
  | .stamping asked _ => asked = terms
  | .loading call => call.terms = terms
  | .reading call pass _ known => call.terms = terms ∧
    (pass = .scripts → ∃ paid, Pays reader whole content terms call.stamp paid) ∧
    ∀ paid ∈ known, Pays reader whole content terms call.stamp paid
  | .judgingStructure call _ _ => call.terms = terms
  | .judgingRoots call _ _ _ => call.terms = terms ∧ ∃ paid, Pays reader whole content terms call.stamp paid
  | .rooting call _ _ paid => call.terms = terms ∧ Pays reader whole content terms call.stamp paid
  | .saving call rest word => call.terms = terms ∧ RestAlike reader whole content terms rest ∧
    ∀ said ∈ word, Inline reader whole content terms headers call.stamp said none
  | .clearing call word subject => call.terms = terms ∧ Inline reader whole content terms headers call.stamp word subject
  | .finished => True

def EventAlike : Event Hash → Prop
  | .done (some stamp) _ word subject => Inline reader whole content terms headers stamp word subject
  | .answered _ height answer => answer = headers height
  | _ => True

/-- What is asked of a request's step: of the saved bytes, of the request, and of what it emits. -/
def StepAlike (out : Option (List UInt8) × Task Cursor Hash × List (Event Hash)) : Prop :=
  StateAlike reader whole content terms out.1 ∧ TaskAlike reader whole content terms headers out.2.1 ∧
    ∀ event ∈ out.2.2, EventAlike reader whole content terms headers event

variable {reader whole content terms headers}

theorem stateAlike_none : StateAlike reader whole content terms none := by
  intro rest read
  cases read

theorem StateAlike.saved {objectRoots : Bytes → Set (Nat × Hash)} (correct : reader.Correct objectRoots)
    {rest : Rest Cursor} (alike : RestAlike reader whole content terms rest) :
    StateAlike reader whole content terms (some (rest.toBinary reader.codec)) := by
  intro other read
  rw [Option.bind_some, Rest.fromBinary_toBinary reader.codec rest (correct.saves rest.cursor)] at read
  split at read
  · cases read
  · cases read
    exact alike

theorem StepAlike.quiet {state : Option (List UInt8)} {task : Task Cursor Hash}
    (saved : StateAlike reader whole content terms state) (alike : TaskAlike reader whole content terms headers task) :
    StepAlike reader whole content terms headers (state, task, []) := ⟨saved, alike, by simp⟩

theorem StepAlike.last {state : Option (List UInt8)} {event : Event Hash}
    (saved : StateAlike reader whole content terms state)
    (alike : EventAlike reader whole content terms headers event) :
    StepAlike reader whole content terms headers (state, .finished, [event]) := ⟨saved, trivial, by simpa using alike⟩

theorem StepAlike.failed {state : Option (List UInt8)} (saved : StateAlike reader whole content terms state) :
    StepAlike reader whole content terms headers (state, .finished, [.failed]) := .last saved trivial

/-- A state under the stamp of the request's object is gone on from. -/
theorem TaskAlike.enter {call : Call} (asked : call.terms = terms) {saved : Option (Rest Cursor)}
    (same : ∀ rest ∈ saved, rest.stamp = call.stamp) (alike : ∀ rest ∈ saved, RestAlike reader whole content terms rest) :
    TaskAlike reader whole content terms headers (enter reader call saved) := by
  cases saved with
  | none => exact ⟨asked, by simp, by simp⟩
  | some rest =>
    have here := alike rest rfl
    have stamp := same rest rfl
    unfold RestAlike at here
    rw [stamp] at here
    unfold Door.enter
    cases phase : rest.phase with
    | structural =>
      simp only [phase]
      exact ⟨asked, by simp, by simp⟩
    | scripts =>
      simp only [phase]
      exact ⟨asked, fun _ => here (by simp [phase]), by simp⟩
    | roots =>
      simp only [phase]
      exact ⟨asked, here (by simp [phase])⟩

/-- What the structure refuses, or the output, is refused in one request. -/
theorem inline_refused {stamp : Stamp} {verdict : DoorVerdict Hash}
    (refused : structureAndOutput reader whole terms (content stamp) = .ok (.error verdict)) :
    Inline reader whole content terms headers stamp verdict.word verdict.subject :=
  ⟨verdict.named, by simp only [verifyInline, refused]⟩

theorem inline_scripts {stamp : Stamp} {paid : Hash × Nat} {reason : UnverifiableReason}
    (pays : Pays reader whole content terms stamp paid)
    (refused : reader.read none .scripts (content stamp) whole = .refused reason) :
    Inline reader whole content terms headers stamp (.unverifiable reason) none := by
  rw [Pays] at pays
  exact ⟨_, by simp only [verifyInline, pays, refused]; rfl⟩

theorem inline_roots {stamp : Stamp} {paid : Hash × Nat} {cursor : Cursor} {word : PaymentVerdict}
    {failedAt : Option Nat} (pays : Pays reader whole content terms stamp paid)
    (valid : reader.read none .scripts (content stamp) whole = .valid cursor)
    (said : rootsWord reader.displayHex headers paid.2 (rootsOf reader cursor) 0 none = .word word failedAt) :
    Inline reader whole content terms headers stamp word (judged word paid.1) := by
  rw [Pays] at pays
  exact ⟨none, by simp only [verifyInline, pays, valid, said]⟩

variable {objectRoots : Bytes → Set (Nat × Hash)} {log : List (Event Hash)}
  (resumes : ∀ stamp, reader.Resumes whole (content stamp))
include resumes

theorem stepTask_reading_alike (w : World Cursor Hash) (env : Env Slice) {call : Call} {pass : Pass}
    {start : Option Cursor} {known : Option (Hash × Nat)} (saved : StateAlike reader whole content terms w.state)
    (sound : TaskSound reader content objectRoots log (.reading call pass start known))
    (alike : TaskAlike reader whole content terms headers (.reading call pass start known)) :
    StepAlike reader whole content terms headers (stepTask reader content w env (.reading call pass start known)) := by
  obtain ⟨asked, ran, pays⟩ := alike
  rw [stepTask]
  split
  · exact .failed saved
  · split
    · rename_i reason here
      have refused := (resumes call.stamp).refused pass start env.slice reason sound.1 here
      cases pass with
      | structural =>
        have refused' : structureAndOutput reader whole terms (content call.stamp) = .ok (.error (.refusal reason)) := by
          rw [structureAndOutput, refused]
        exact .quiet saved ⟨asked, inline_refused refused'⟩
      | scripts =>
        obtain ⟨paid, pays⟩ := ran rfl
        exact .quiet saved ⟨asked, inline_scripts pays refused⟩
    · refine .quiet saved ⟨asked, fun later => ?_, by simp⟩
      cases pass with
      | structural => exact absurd rfl later
      | scripts => exact ran rfl
    · cases pass with
      | structural => exact .quiet saved asked
      | scripts =>
        cases known with
        | none => exact .quiet saved ⟨asked, ran rfl⟩
        | some paid => exact .quiet saved ⟨asked, pays paid rfl⟩

/-- The roots of a request that goes on where only carried roots lie before. -/
theorem stepTask_rooting_alike (w : World Cursor Hash) (env : Env Slice) (served : env.headers = headers) {call : Call}
    {cursor : Cursor} {rootsAsked : Nat} {paid : Hash × Nat} (saved : StateAlike reader whole content terms w.state)
    (heard : ∀ event ∈ log, EventAlike reader whole content terms headers event)
    (sound : TaskSound reader content objectRoots log (.rooting call cursor rootsAsked paid))
    (alike : TaskAlike reader whole content terms headers (.rooting call cursor rootsAsked paid)) :
    StepAlike reader whole content terms headers (stepTask reader content w env (.rooting call cursor rootsAsked paid)) := by
  obtain ⟨asked, pays⟩ := alike
  obtain ⟨⟨ends, answered⟩, -⟩ := sound
  have carried : ∀ r ∈ (rootsOf reader cursor).take rootsAsked, Carried reader.displayHex headers r := by
    intro r member
    obtain ⟨hex, told, same⟩ := answered r member
    exact ⟨hex, (heard _ told).symm, same⟩
  obtain ⟨other, valid, roots, -⟩ := (resumes call.stamp).valid .scripts cursor ends
  have spoken : ∀ word failedAt, rootsWord reader.displayHex headers paid.2 (rootsOf reader cursor) rootsAsked
      (some call.lookups) = .word word failedAt →
      Inline reader whole content terms headers call.stamp word (judged word paid.1) := by
    intro word failedAt said
    obtain ⟨place, same⟩ := rootsWord_behind (rootsOf_sorted reader cursor) carried paid.2 said
    rw [← rootsOf_same roots] at same
    exact inline_roots pays valid same
  have told : ∀ event ∈ (rootsLookedUp reader.displayHex headers (rootsOf reader cursor) rootsAsked
      (some call.lookups)).map (fun height => (.answered call.stamp height (headers height) : Event Hash)),
      EventAlike reader whole content terms headers event := by
    intro event member
    obtain ⟨height, -, rfl⟩ := List.mem_map.mp member
    rfl
  have rest : RestAlike reader whole content terms ⟨call.stamp, .roots, UInt64.ofNat 0, cursor⟩ := fun _ => ⟨paid, pays⟩
  rw [stepTask, served]
  split
  · exact ⟨saved, ⟨asked, fun _ => ⟨paid, pays⟩, by simp⟩, told⟩
  · rename_i word place said
    refine ⟨saved, ⟨asked, fun _ => ⟨paid, pays⟩, fun other same => ?_⟩, told⟩
    cases same
    have unnamed : judged word paid.1 = none := by
      cases word with
      | verified satoshis => cases (rootsWord_verified (rootsOf_sorted reader cursor) said).2.1
      | _ => rfl
    rw [← unnamed]
    exact spoken word (some place) said
  · rename_i word said
    exact ⟨saved, ⟨asked, spoken word none said⟩, told⟩

theorem stepTask_alike (correct : reader.Correct objectRoots) (w : World Cursor Hash) (env : Env Slice)
    (served : env.headers = headers) {task : Task Cursor Hash} (saved : StateAlike reader whole content terms w.state)
    (heard : ∀ event ∈ log, EventAlike reader whole content terms headers event)
    (sound : TaskSound reader content objectRoots log task) (alike : TaskAlike reader whole content terms headers task) :
    StepAlike reader whole content terms headers (stepTask reader content w env task) := by
  cases task with
  | stamping asked lookups =>
    rw [stepTask]
    split
    · exact .failed saved
    · split
      · exact .last saved trivial
      · exact .quiet saved alike
  | loading call =>
    rw [stepTask]
    split
    · exact .failed saved
    · refine .quiet saved (TaskAlike.enter alike (fun rest read => ?_) (fun rest read => ?_))
      · exact of_decide_eq_true (Option.mem_filter_iff.mp read).2
      · exact saved rest (Option.mem_filter_iff.mp read).1
  | reading call pass start known => exact stepTask_reading_alike resumes w env saved sound alike
  | judgingStructure call cursor opens =>
    cases opens with
    | zero =>
      have asked : call.terms = terms := alike
      have judged' := @structureAndOutput_structural _ _ _ _ _ _ _ terms _ (resumes call.stamp) _ sound
      rw [stepTask, asked]
      split
      · exact .failed saved
      · rename_i word refused
        rw [refused] at judged'
        exact .quiet saved ⟨asked, inline_refused judged'⟩
      · rename_i paid pays
        rw [pays] at judged'
        refine .quiet saved ⟨asked, fun _ => ⟨paid, judged'⟩, fun other same => ?_⟩
        cases same
        exact judged'
    | succ opens =>
      rw [stepTask]
      split
      · exact .failed saved
      · exact .quiet saved alike
  | judgingRoots call cursor rootsAsked opens =>
    cases opens with
    | zero =>
      obtain ⟨asked, paid, pays⟩ := alike
      have again := structureAndOutput_scripts (resumes call.stamp) sound.1 pays
      rw [stepTask, asked, again]
      exact .quiet saved ⟨asked, pays⟩
    | succ opens =>
      rw [stepTask]
      split
      · exact .failed saved
      · exact .quiet saved alike
  | rooting call cursor rootsAsked paid =>
    exact stepTask_rooting_alike resumes w env served saved heard sound alike
  | saving call rest word =>
    obtain ⟨asked, resting, spoken⟩ := alike
    have written := StateAlike.saved correct resting
    rw [stepTask]
    split
    · split
      · exact .failed written
      · exact .failed saved
    · refine .last written ?_
      cases word with
      | none => trivial
      | some word => exact spoken word rfl
  | clearing call word subject =>
    rw [stepTask]
    split
    · split
      · exact .failed stateAlike_none
      · exact .failed saved
    · exact .last stateAlike_none alike.2
  | finished => exact .quiet saved trivial

omit resumes in
variable (reader whole content terms headers) in
/-- The saved bytes, the requests and what was said so far. -/
structure WorldAlike (objectRoots : Bytes → Set (Nat × Hash)) (c : Config (World Cursor Hash) (Event Hash)) : Prop where
  sound : WorldSound reader content objectRoots c
  state : StateAlike reader whole content terms c.state.state
  tasks : ∀ task ∈ c.state.tasks, TaskAlike reader whole content terms headers task
  log : ∀ event ∈ c.log, EventAlike reader whole content terms headers event

omit resumes in
theorem run_sound (correct : reader.Correct objectRoots) (object : Option Stamp) (inputs : List (Input Slice)) :
    WorldSound reader content objectRoots ((doors reader content).run ⟨⟨object, none, []⟩, []⟩ inputs) :=
  (doors reader content).run_kept (fun c input => WorldSound.advance correct c input)
    ⟨stateSound_none, by simp, preceded_nil⟩ inputs

theorem WorldAlike.advance (correct : reader.Correct objectRoots) (c : Config (World Cursor Hash) (Event Hash))
    (input : Input Slice) (alike : WorldAlike reader whole content terms headers objectRoots c)
    (same : input.Alike terms headers) :
    WorldAlike reader whole content terms headers objectRoots ((doors reader content).advance c input) := by
  have sound := WorldSound.advance correct c input alike.sound
  cases input with
  | upload stamp => exact ⟨sound, alike.state, alike.tasks, by simpa [doors, Machine.advance] using alike.log⟩
  | remove => exact ⟨sound, alike.state, alike.tasks, by simpa [doors, Machine.advance] using alike.log⟩
  | start asked lookups headerService =>
    cases headerService with
    | false =>
      refine ⟨sound, alike.state, alike.tasks, fun event member => ?_⟩
      rcases List.mem_append.mp member with old | new
      · exact alike.log event old
      · cases List.mem_singleton.mp new
        trivial
    | true =>
      refine ⟨sound, alike.state, fun task member => ?_, by simpa [doors, Machine.advance] using alike.log⟩
      rcases List.mem_append.mp member with old | new
      · exact alike.tasks task old
      · cases List.mem_singleton.mp new
        exact same
  | advance i env =>
    cases found : c.state.tasks[i]? with
    | none =>
      have idle : (doors reader content).advance c (.advance i env) = c := by
        simp [Machine.advance, doors, found]
      rwa [idle]
    | some task =>
      have member : task ∈ c.state.tasks := List.mem_of_getElem? found
      obtain ⟨state, next, each⟩ := stepTask_alike resumes correct c.state env same alike.state alike.log
        (alike.sound.tasks task member) (alike.tasks task member)
      have step : (doors reader content).advance c (.advance i env) =
          ⟨{ c.state with
              state := (stepTask reader content c.state env task).1,
              tasks := c.state.tasks.set i (stepTask reader content c.state env task).2.1 },
            c.log ++ (stepTask reader content c.state env task).2.2⟩ := by
        simp [Machine.advance, doors, found]
      rw [step] at sound ⊢
      refine ⟨sound, state, fun other here => ?_, fun event here => ?_⟩
      · rcases List.mem_or_eq_of_mem_set here with old | rfl
        · exact alike.tasks other old
        · exact next
      · rcases List.mem_append.mp here with old | new
        · exact alike.log event old
        · exact each event new

omit resumes in
variable (reader whole content terms headers) in
/-- Every word that requests with the same terms are answered at rest, over any number of slices, lookups, failures and
uploads, is the word that the same bytes are answered in one request. -/
theorem at_rest_says_inline (correct : reader.Correct objectRoots)
    (resumes : ∀ stamp, reader.Resumes whole (content stamp)) (object : Option Stamp) (inputs : List (Input Slice))
    (same : ∀ input ∈ inputs, input.Alike terms headers) (stamp : Stamp) (asked : Terms) (word : PaymentVerdict)
    (subject : Option Hash)
    (answered : .done (some stamp) asked word subject ∈ ((doors reader content).run ⟨⟨object, none, []⟩, []⟩ inputs).log) :
    ∃ named, verifyInline reader whole terms (content stamp) (some headers) = .ok ⟨word, named, subject⟩ := by
  have start : WorldAlike reader whole content terms headers objectRoots ⟨⟨object, none, []⟩, []⟩ :=
    ⟨⟨stateSound_none, by simp, preceded_nil⟩, stateAlike_none, by simp, by simp⟩
  have alike := (doors reader content).run_invariant
    (fun c input alike same => WorldAlike.advance resumes correct c input alike same) start
    (((doors reader content).guarded_iff_forall_step _ _).mpr (fun _ input part => same input (part.subset (by simp))))
  exact alike.log _ answered

end

theorem twoRoots_resumes (stamp : Stamp) : twoRoots.Resumes () ((fun _ => ()) stamp) where
  refused _ _ _ _ _ refused := by cases refused
  valid _ _ _ := ⟨(), rfl, rfl, rfl⟩
  subject _ _ _ _ := rfl

/-- One lookup a request: the first pauses at the second root, and the second goes on from it. -/
def twoRequests : List (Input Unit) :=
  [.upload oneUpload, .start fairTerms 1 true] ++ List.replicate 8 (.advance 0 wellServed) ++
    [.start fairTerms 1 true] ++ List.replicate 8 (.advance 1 wellServed)

theorem twoRequests_inline : ∃ named, verifyInline twoRoots () fairTerms () (some wellServed.headers) =
    .ok ⟨.verified 40, named, some 5⟩ := by
  have same : ∀ input ∈ twoRequests, input.Alike fairTerms wellServed.headers := by
    intro input member
    simp only [twoRequests, List.mem_append, List.mem_cons, List.mem_replicate, List.not_mem_nil, or_false] at member
    rcases member with (((rfl | rfl) | ⟨-, rfl⟩) | rfl) | ⟨-, rfl⟩ <;> trivial
  have log : ((doors twoRoots (fun _ => ())).run ⟨⟨none, none, []⟩, []⟩ twoRequests).log =
      [.answered oneUpload 7 (.ok "AA"), .pending oneUpload, .answered oneUpload 8 (.ok "bb"),
        .done (some oneUpload) fairTerms (.verified 40) (some 5)] := by
    decide +kernel
  exact at_rest_says_inline twoRoots () (fun _ => ()) fairTerms wellServed.headers twoRoots_correct twoRoots_resumes
    none twoRequests same oneUpload fairTerms (.verified 40) (some 5) (by simp [log])

end MessageRelay.Door
