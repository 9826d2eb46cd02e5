import MessageRelay.Session.Synced

/-! What a call on the session's rounds leaves behind: the durable rounds, and the auth state in memory. -/

namespace MessageRelay.Session

variable {platform : Platform}

theorem rounds_persist (e : Engine) : (e.persistToWsAttachment platform).rounds = e.rounds := by
  unfold Engine.persistToWsAttachment
  split
  · unfold Engine.serializeAttachment
    split <;> rfl
  · rfl

theorem rounds_rehydrate (e : Engine) : e.rehydrateFromWsAttachment.rounds = e.rounds := by
  unfold Engine.rehydrateFromWsAttachment
  split
  · split <;> rfl
  · rfl

theorem rounds_ensureInner (e : Engine) (sid : String) : (e.ensureInner sid).rounds = e.rounds := by
  unfold Engine.ensureInner
  simp only
  split <;> exact rounds_rehydrate e

theorem rounds_ensureHeartbeat (e : Engine) (a : Ambient) : (e.ensureHeartbeat platform a).rounds = e.rounds := by
  obtain same | ⟨att, -, same⟩ := Engine.ensureHeartbeat_cases platform e a
  · rw [same]
  · rw [same]
    unfold Engine.stampPing Engine.serializeAttachment
    split <;> rfl

theorem rounds_settleRounds (e : Engine) (r : AuthRoundState) : (e.settleRounds platform r).rounds = some r := by
  rw [Engine.settleRounds, rounds_persist]
  rfl

theorem inner_persist (e : Engine) : (e.persistToWsAttachment platform).inner = e.inner := by
  unfold Engine.persistToWsAttachment
  split
  · unfold Engine.serializeAttachment
    split <;> rfl
  · rfl

theorem auth_settleRounds {e : Engine} {r : AuthRoundState} {s : SessionState}
    (present : (e.settleRounds platform r).inner = some s) : s.auth = r.current := by
  rw [Engine.settleRounds, inner_persist] at present
  obtain ⟨before, -, rfl⟩ := Option.map_eq_some_iff.mp present
  rfl

/-- A call on the rounds: a verified General selects the round it was signed on, and nothing else moves a selected
round. -/
theorem authRound_rounds (e : Engine) (raw : AuthArg) (completed : Option SessionAuthState) (a : Ambient) :
    (∃ payload, (e.authRound platform raw completed a).2 = .authenticatedGeneral payload ∧
      ∃ r identity, (e.authRound platform raw completed a).1.rounds = some r ∧
        r.current.verifiedIdentityKey = some identity ∧ SignedBy platform.wallet raw r.current identity ∧
        ∀ s, (e.authRound platform raw completed a).1.inner = some s → s.auth = r.current) ∨
    ((∀ payload, (e.authRound platform raw completed a).2 ≠ .authenticatedGeneral payload) ∧
      ∀ r, e.rounds = some r → r.current.isAuthenticated = true →
        ∃ r', (e.authRound platform raw completed a).1.rounds = some r' ∧ r'.current = r.current) := by
  have idle (reason : String) (same : e.authRound platform raw completed a = (e, .error reason)) :
      (∀ payload, (e.authRound platform raw completed a).2 ≠ .authenticatedGeneral payload) ∧
        ∀ r, e.rounds = some r → r.current.isAuthenticated = true →
          ∃ r', (e.authRound platform raw completed a).1.rounds = some r' ∧ r'.current = r.current := by
    rw [same]
    exact ⟨fun _ no => (by cases no), fun r held _ => ⟨r, held, rfl⟩⟩
  have kept (r : AuthRoundState) (held : e.rounds = some r) : e.authRounds = r := by
    rw [Engine.authRounds, held, Option.getD_some]
  by_cases read : a.roundsRead = true
  swap
  · exact .inr (idle "auth authority unavailable" (by simp [Engine.authRound, read]))
  by_cases written : a.roundsWritten = true
  swap
  · cases completed with
    | none => exact .inr (idle "auth authority unavailable" (by simp [Engine.authRound, read, written]))
    | some state =>
      by_cases done : state.isAuthenticated = true
      · exact .inr (idle "auth authority unavailable" (by simp [Engine.authRound, read, written, done]))
      · exact .inr (idle "incomplete auth handoff" (by simp [Engine.authRound, read, done]))
  cases completed with
  | some state =>
    by_cases done : state.isAuthenticated = true
    swap
    · exact .inr (idle "incomplete auth handoff" (by simp [Engine.authRound, read, done]))
    refine .inr ?_
    simp only [Engine.authRound, read, written, done, Bool.not_true, Bool.false_eq_true, if_false]
    refine ⟨fun _ no => (by cases no), fun r held selected => ⟨_, rounds_settleRounds e _, ?_⟩⟩
    rw [kept r held, rememberAuthRound]
    simp only [selected, if_true]
  | none =>
    simp only [Engine.authRound, read, written, Bool.not_true, Bool.false_eq_true, if_false]
    generalize advanced : advanceAuthRounds platform.wallet raw e.authRounds a.createdNonce = out
    obtain ⟨outcome, r'⟩ := out
    by_cases verified : ∃ payload, outcome = .authenticatedGeneral payload
    · obtain ⟨payload, rfl⟩ := verified
      obtain ⟨same, identity, proves, signed⟩ := advanceAuthRounds_general advanced
      refine .inl ⟨payload, rfl, r', identity, rounds_settleRounds e r', ?_, ?_, fun s present => auth_settleRounds present⟩
      · rw [same]
        exact proves
      · rw [same]
        exact signed
    · refine .inr ⟨fun payload no => verified ⟨payload, no⟩, fun r held selected =>
        ⟨r', rounds_settleRounds e r', ?_⟩⟩
      have other := @advanceAuthRounds_current platform.wallet raw e.authRounds a.createdNonce
        (fun payload no => verified ⟨payload, by rw [advanced] at no; exact no⟩) (by rw [kept r held]; exact selected)
      rw [advanced, kept r held] at other
      exact other

end MessageRelay.Session
