import MessageRelay.Library.Machine
import MessageRelay.Session.Auth

/-! A session's rounds over every history of auth messages and handed-over handshakes: what is kept of the rounds this
relay completed, and the round a General is judged against. -/

namespace MessageRelay.Session
open MessageRelay.Library

/-- A message with the wallet that checks it, or a round the Worker completed. -/
inductive AuthCall where
  | advance (wallet : Wallet) (raw : AuthArg) (created : Except String String)
  | remember (state : SessionAuthState)

namespace AuthCall

def outcome : AuthCall → AuthRoundState → Option AuthOutcome
  | advance wallet raw created, r => some (advanceAuthRounds wallet raw r created).1
  | remember _, _ => none

def after : AuthCall → AuthRoundState → AuthRoundState
  | advance wallet raw created, r => (advanceAuthRounds wallet raw r created).2
  | remember state, r => rememberAuthRound r state

/-- The round the call completes. -/
def completed : AuthCall → AuthRoundState → Option SessionAuthState
  | advance wallet raw created, r =>
    if raw.messageType = some "general" then none
    else match handleAuthMessage wallet raw r.current created with
      | .outbound (out :: _) => (sessionFromInitialResponse raw out).toOption
      | _ => none
  | remember state, _ => some state

end AuthCall

/-- The log lists the rounds remembered. -/
def authMachine : Machine AuthRoundState AuthCall SessionAuthState :=
  ⟨fun r call => (call.after r, (call.completed r).toList)⟩

/-- A session without durable rounds starts with the state it has in memory. -/
def authStart (seed : SessionAuthState) : Config AuthRoundState SessionAuthState := ⟨⟨seed, []⟩, []⟩

/-- The round has the nonce the message names. -/
def Names (raw : AuthArg) (round : SessionAuthState) : Prop :=
  match round with
  | .authenticated serverSessionNonce _ _ => raw.yourNonce = some serverSessionNonce
  | .unauthenticated => False

theorem rememberAuthRound_current {r : AuthRoundState} (state : SessionAuthState) (selected : r.current.isAuthenticated) :
    (rememberAuthRound r state).current = r.current := if_pos selected

/-- What a message does to the rounds: a round completed is remembered, a verified General selects a round it names, and
nothing else moves them. -/
theorem advanceAuthRounds_cases (wallet : Wallet) (raw : AuthArg) (r : AuthRoundState) (created : Except String String) :
    let call := AuthCall.advance wallet raw created
    (∃ out rest state, (advanceAuthRounds wallet raw r created).1 = .outbound (out :: rest) ∧
      call.completed r = some state ∧ call.after r = rememberAuthRound r state) ∨
    (∃ payload candidate, (advanceAuthRounds wallet raw r created).1 = .authenticatedGeneral payload ∧
      raw.messageType = some "general" ∧ call.completed r = none ∧ call.after r = { r with current := candidate } ∧
      selectRound r raw.yourNonce = some candidate ∧
      handleAuthMessage wallet raw candidate created = .authenticatedGeneral payload) ∨
    (call.completed r = none ∧ call.after r = r) := by
  intro call
  by_cases general : raw.messageType = some "general"
  · have none' : call.completed r = none := if_pos general
    cases chosen : selectRound r raw.yourNonce with
    | none =>
      refine .inr (.inr ⟨none', ?_⟩)
      simp only [call, AuthCall.after, advanceAuthRounds, if_pos general, chosen]
    | some candidate =>
      cases judged : handleAuthMessage wallet raw candidate created with
      | authenticatedGeneral payload =>
        refine .inr (.inl ⟨payload, candidate, ?_, general, none', ?_, rfl, judged⟩) <;>
          simp only [call, AuthCall.after, advanceAuthRounds, if_pos general, chosen, judged]
      | outbound messages | quiet | error reason =>
        refine .inr (.inr ⟨none', ?_⟩)
        simp only [call, AuthCall.after, advanceAuthRounds, if_pos general, chosen, judged]
  · have opened : call.completed r = match handleAuthMessage wallet raw r.current created with
        | .outbound (out :: _) => (sessionFromInitialResponse raw out).toOption
        | _ => none := if_neg general
    simp only [opened, call, AuthCall.after, advanceAuthRounds, if_neg general]
    rcases handleAuthMessage wallet raw r.current created with (_ | ⟨out, rest⟩) | _ | _ | _
    · exact .inr (.inr ⟨rfl, rfl⟩)
    · cases read : sessionFromInitialResponse raw out with
      | error reason =>
        refine .inr (.inr ⟨?_, ?_⟩) <;>
          simp only [read, Except.toOption]
      | ok state =>
        refine .inl ⟨out, rest, state, ?_, ?_, ?_⟩ <;>
          simp only [read, Except.toOption]
    all_goals exact .inr (.inr ⟨rfl, rfl⟩)

theorem selectRound_some {r : AuthRoundState} {yourNonce : Option String} {candidate : SessionAuthState}
    (chosen : selectRound r yourNonce = some candidate) : candidate ∈ r.current :: r.rounds := by
  have member := List.mem_of_find?_eq_some chosen
  simpa using member

theorem selectRound_names {raw : AuthArg} {r : AuthRoundState} {candidate : SessionAuthState}
    (chosen : selectRound r raw.yourNonce = some candidate) : Names raw candidate := by
  have matched := List.find?_some chosen
  cases candidate with
  | authenticated serverSessionNonce peerNonce peerIdentityKey => simpa [Names] using matched
  | unauthenticated => cases matched

theorem exists_selectRound {raw : AuthArg} {r : AuthRoundState} {round : SessionAuthState}
    (member : round ∈ r.current :: r.rounds) (named : Names raw round) :
    ∃ candidate, selectRound r raw.yourNonce = some candidate := by
  have listed : round ∈ r.current :: r.rounds.reverse := by simpa using member
  refine Option.isSome_iff_exists.mp (List.find?_isSome.mpr ⟨round, listed, ?_⟩)
  cases round with
  | authenticated serverSessionNonce peerNonce peerIdentityKey => simpa [Names] using named
  | unauthenticated => exact named.elim

theorem rtake_snoc {α : Type} (n : Nat) (l : List α) (x : α) :
    (l ++ [x]).rtake (n + 1) =
      if n + 1 < (l.rtake (n + 1) ++ [x]).length then (l.rtake (n + 1) ++ [x]).drop 1 else l.rtake (n + 1) ++ [x] := by
  rw [List.rtake_concat_succ, List.rtake, List.rtake, List.length_append, List.length_drop, List.length_singleton]
  split_ifs with full
  · rw [List.drop_append_of_le_length (by rw [List.length_drop]; omega), List.drop_drop]
    congr 2
    omega
  · congr 2
    omega

/-- The rounds a session has ever had before it completed one itself. -/
def seeded (seed : SessionAuthState) : List SessionAuthState := if seed.isAuthenticated then [seed] else []

/-- What a run keeps: the sixteen newest of the rounds remembered, the seed the oldest of them. -/
structure RoundsKept (seed : SessionAuthState) (c : Config AuthRoundState SessionAuthState) : Prop where
  rounds : c.state.rounds = if c.log = [] then [] else (seeded seed ++ c.log).rtake 16
  first : c.log = [] → c.state.current = seed
  built : c.state.current ∈ seed :: c.log

theorem RoundsKept.remember {seed : SessionAuthState} {c : Config AuthRoundState SessionAuthState}
    (kept : RoundsKept seed c) (state : SessionAuthState) :
    RoundsKept seed ⟨rememberAuthRound c.state state, c.log ++ [state]⟩ where
  rounds := by
    have pushed : (if c.state.rounds = [] ∧ c.state.current.isAuthenticated then [c.state.current] else c.state.rounds) =
        (seeded seed ++ c.log).rtake 16 := by
      by_cases empty : c.log = []
      · have none' : c.state.rounds = [] := by rw [kept.rounds, if_pos empty]
        rw [empty, List.append_nil, seeded, kept.first empty]
        by_cases proven : seed.isAuthenticated = true
        · rw [if_pos ⟨none', proven⟩, if_pos proven]
          rfl
        · rw [if_neg (fun both => proven both.2), if_neg proven, none']
          rfl
      · have some' : c.state.rounds ≠ [] := by
          rw [kept.rounds, if_neg empty, List.rtake, ne_eq, List.drop_eq_nil_iff, List.length_append]
          have := List.length_pos_iff.mpr empty
          omega
        rw [if_neg (fun both => some' both.1), kept.rounds, if_neg empty]
    have grown : c.log ++ [state] ≠ [] := List.concat_ne_nil _ _
    rw [if_neg grown, ← List.append_assoc, rtake_snoc 15, ← pushed]
    rfl
  first := fun empty => absurd empty (List.concat_ne_nil _ _)
  built := by
    simp only [rememberAuthRound]
    split_ifs
    · exact List.mem_append_left [state] kept.built
    · exact List.mem_append_right (seed :: c.log) (List.mem_singleton_self state)

theorem RoundsKept.rounds_built {seed : SessionAuthState} {c : Config AuthRoundState SessionAuthState}
    (kept : RoundsKept seed c) {round : SessionAuthState} (member : round ∈ c.state.rounds) : round ∈ seed :: c.log := by
  rw [kept.rounds] at member
  split_ifs at member
  · cases member
  · have within := List.mem_of_mem_drop member
    rw [seeded] at within
    split_ifs at within
    · exact within
    · exact List.mem_cons_of_mem _ within

theorem RoundsKept.select {seed : SessionAuthState} {c : Config AuthRoundState SessionAuthState}
    (kept : RoundsKept seed c) {candidate : SessionAuthState} (member : candidate ∈ c.state.current :: c.state.rounds) :
    RoundsKept seed ⟨{ c.state with current := candidate }, c.log⟩ where
  rounds := kept.rounds
  first := by
    intro empty
    have none' : c.state.rounds = [] := by rw [kept.rounds, if_pos empty]
    rw [none', List.mem_singleton] at member
    exact member.trans (kept.first empty)
  built := by
    rcases List.mem_cons.mp member with rfl | member
    · exact kept.built
    · exact kept.rounds_built member

theorem roundsKept_advance {seed : SessionAuthState} (c : Config AuthRoundState SessionAuthState) (call : AuthCall)
    (kept : RoundsKept seed c) : RoundsKept seed (authMachine.advance c call) := by
  have moved : authMachine.advance c call = ⟨call.after c.state, c.log ++ (call.completed c.state).toList⟩ := rfl
  rw [moved]
  cases call with
  | remember state => exact kept.remember state
  | advance wallet raw created =>
    obtain ⟨out, rest, state, -, completed, after⟩ | ⟨payload, candidate, -, -, completed, after, chosen, -⟩ |
      ⟨completed, after⟩ := advanceAuthRounds_cases wallet raw c.state created
    · rw [completed, after]
      exact kept.remember state
    · rw [completed, after, Option.toList_none, List.append_nil]
      exact kept.select (selectRound_some chosen)
    · rw [completed, after, Option.toList_none, List.append_nil]
      exact kept

theorem roundsKept_run (seed : SessionAuthState) (calls : List AuthCall) :
    RoundsKept seed (authMachine.run (authStart seed) calls) :=
  @Machine.run_kept _ _ _ authMachine (RoundsKept seed) roundsKept_advance (authStart seed)
    ⟨rfl, fun _ => rfl, List.mem_cons_self⟩ calls

/-- The sixteen newest rounds remembered are kept. -/
theorem RoundsKept.newest {seed : SessionAuthState} {c : Config AuthRoundState SessionAuthState}
    (kept : RoundsKept seed c) {round : SessionAuthState} (member : round ∈ c.log.rtake 16) : round ∈ c.state.rounds := by
  have some' : c.log ≠ [] := by
    rintro empty
    rw [empty] at member
    cases member
  rw [kept.rounds, if_neg some', List.rtake_eq_reverse_take_reverse, List.reverse_append, List.mem_reverse]
  rw [List.rtake_eq_reverse_take_reverse, List.mem_reverse] at member
  exact (List.prefix_append _ _).take 16 |>.subset member

theorem RoundsKept.few {seed : SessionAuthState} {c : Config AuthRoundState SessionAuthState} (kept : RoundsKept seed c) :
    c.state.rounds.length ≤ 16 := by
  rw [kept.rounds]
  split_ifs
  · exact Nat.zero_le _
  · rw [List.rtake, List.length_drop]
    omega

theorem advanceAuthRounds_selected {wallet : Wallet} {raw : AuthArg} {r : AuthRoundState}
    {created : Except String String} {candidate : SessionAuthState} (general : raw.messageType = some "general")
    (chosen : selectRound r raw.yourNonce = some candidate) :
    (advanceAuthRounds wallet raw r created).1 = handleAuthMessage wallet raw candidate created := by
  unfold advanceAuthRounds
  rw [if_pos general, chosen]
  simp only
  split <;> simp_all

/-- Over every history of messages and completed handshakes at most sixteen rounds are kept, all of them rounds this relay
completed or the session's first state. A selected round gives way only to one whose General was verified in that very call,
a message neither answered nor verified moves nothing, and a General that names the selected round or one of the sixteen
newest is judged against a round of that nonce: against that round where no other has it. -/
theorem authRounds_on_proof (seed : SessionAuthState) (calls : List AuthCall) :
    let c := authMachine.run (authStart seed) calls
    c.state.rounds.length ≤ 16 ∧
    (∀ round ∈ c.state.current :: c.state.rounds, round ∈ seed :: c.log) ∧
    (∀ call : AuthCall, c.state.current.isAuthenticated → (call.after c.state).current ≠ c.state.current →
      ∃ wallet raw created payload identity, call = .advance wallet raw created ∧ raw.messageType = some "general" ∧
        call.outcome c.state = some (.authenticatedGeneral payload) ∧
        (call.after c.state).current ∈ c.state.rounds ∧
        SignedBy wallet raw (call.after c.state).current identity) ∧
    (∀ wallet raw created, let call := AuthCall.advance wallet raw created
      (∀ messages, call.outcome c.state ≠ some (.outbound messages)) →
      (∀ payload, call.outcome c.state ≠ some (.authenticatedGeneral payload)) → call.after c.state = c.state) ∧
    ∀ wallet raw created round, raw.messageType = some "general" → round ∈ c.state.current :: c.log.rtake 16 →
      Names raw round → ∃ judged ∈ c.state.current :: c.state.rounds, Names raw judged ∧
        (AuthCall.advance wallet raw created).outcome c.state = some (handleAuthMessage wallet raw judged created) ∧
        ((∀ other ∈ c.state.current :: c.state.rounds, Names raw other → other = round) → judged = round) := by
  intro c
  have kept : RoundsKept seed c := roundsKept_run seed calls
  refine ⟨kept.few, ?built, ?proven, ?refused, ?named⟩
  case built =>
    intro round member
    rcases List.mem_cons.mp member with rfl | member
    · exact kept.built
    · exact kept.rounds_built member
  case proven =>
    intro call selected moved
    cases call with
    | remember state => exact absurd (rememberAuthRound_current state selected) moved
    | advance wallet raw created =>
      obtain ⟨out, rest, state, -, -, after⟩ | ⟨payload, candidate, answered, general, -, after, chosen, judged⟩ |
        ⟨-, after⟩ := advanceAuthRounds_cases wallet raw c.state created
      · rw [after] at moved
        exact absurd (rememberAuthRound_current state selected) moved
      · obtain ⟨identity, -, signed⟩ := handleAuthMessage_general judged
        rw [after] at moved ⊢
        have member := (List.mem_cons.mp (selectRound_some chosen)).resolve_left moved
        exact ⟨wallet, raw, created, payload, identity, rfl, general, congrArg some answered, member, signed⟩
      · exact absurd (congrArg AuthRoundState.current after) moved
  case refused =>
    intro wallet raw created call unanswered unverified
    obtain ⟨out, rest, state, answered, -, -⟩ | ⟨payload, candidate, answered, -, -, -, -, -⟩ | ⟨-, after⟩ :=
      advanceAuthRounds_cases wallet raw c.state created
    · exact absurd (congrArg some answered) (unanswered (out :: rest))
    · exact absurd (congrArg some answered) (unverified payload)
    · exact after
  case named =>
    intro wallet raw created round general member named
    have held : round ∈ c.state.current :: c.state.rounds := by
      rcases List.mem_cons.mp member with rfl | newest
      · exact List.mem_cons_self
      · exact List.mem_cons_of_mem _ (kept.newest newest)
    obtain ⟨judged, chosen⟩ := exists_selectRound held named
    have names := selectRound_names chosen
    exact ⟨judged, selectRound_some chosen, names, congrArg some (advanceAuthRounds_selected general chosen),
      fun alone => alone judged (selectRound_some chosen) names⟩

end MessageRelay.Session
