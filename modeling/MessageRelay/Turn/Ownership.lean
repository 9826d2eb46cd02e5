import MessageRelay.Library.History
import MessageRelay.Turn.Mint

/-! Whose a TURN credential is: what a mint hands out it has recorded, a record names the identity it was minted for,
and the provider is asked to revoke a username only for that identity. -/

namespace MessageRelay.Turn
open MessageRelay.Library MessageRelay.Library.Json MessageRelay.Session
open MessageRelay.Send (Answer errorAnswer)

/-! One mint. -/

/-- The answer is no success, and has no servers in it. -/
structure HandsNothing (answer : Answer) : Prop where
  status : answer.status ≠ 200
  bare : answer.body.get "iceServers" = none

theorem errorAnswer_handsNothing (code description : String) {status : Nat} (failure : status ≠ 200) :
    HandsNothing (errorAnswer code description status) := ⟨failure, rfl⟩

theorem callerRule_handsNothing {range : Range} {body : Text} {identity : String} {refused : Answer}
    (denied : callerRule range body identity = some refused) : HandsNothing refused := by
  unfold callerRule at denied
  split at denied
  · cases denied
  · split at denied
    · split at denied
      · cases denied
      · split at denied
        · cases denied
        · cases denied
          exact errorAnswer_handsNothing _ _ (by decide)
      · cases denied
        exact errorAnswer_handsNothing _ _ (by decide)
    · cases denied
      exact errorAnswer_handsNothing _ _ (by decide)

namespace MintCall
variable (call : MintCall)

/-- The usernames of the provider's answer. -/
def issued : List String :=
  match call.provider with
  | some generated =>
    match generated.bind iceServers with
    | .ok (_, usernames) => usernames
    | .error _ => []
  | none => []

/-- The mint gets as far as recording the usernames of the provider's answer. -/
def Reaches (range : Range) (s : TurnStore) (ice : List Value) (usernames : List String) : Prop :=
  ∃ generated s', call.permit range s = (.ok generated, s') ∧ generated.bind iceServers = .ok (ice, usernames)

/-- The mint is refused before the provider is asked, or goes on with the provider's answer. -/
theorem admit_cases (range : Range) (s : TurnStore) :
    (∃ answer effects s', call.permit range s = (.error (answer, effects), s') ∧ s'.credentials = s.credentials ∧
      HandsNothing answer ∧ ∀ u, .asked u ∉ effects) ∨
    ∃ generated s', call.permit range s = (.ok generated, s') ∧ s'.credentials = s.credentials ∧
      call.provider = some generated := by
  rw [permit]
  split
  · exact .inl ⟨_, _, _, rfl, rfl, errorAnswer_handsNothing _ _ (by decide), fun _ => List.not_mem_nil⟩
  · split
    · next denied => exact .inl ⟨_, _, _, rfl, rfl, callerRule_handsNothing denied, fun _ => List.not_mem_nil⟩
    · split
      · exact .inl ⟨_, _, _, rfl, rfl, errorAnswer_handsNothing _ _ (by decide), fun _ => List.not_mem_nil⟩
      · next generated usable =>
        dsimp only
        split
        · exact .inl ⟨_, _, _, rfl, rfl, errorAnswer_handsNothing _ _ (by decide), fun _ => by simp⟩
        · split
          · exact .inl ⟨_, _, _, rfl, rfl, ⟨by simp [budgetSpent], rfl⟩, fun _ => List.not_mem_nil⟩
          · exact .inr ⟨_, _, rfl, rfl, usable⟩

theorem issued_of_reaches {range : Range} {s : TurnStore} {ice : List Value} {usernames : List String}
    (reaches : call.Reaches range s ice usernames) : call.issued = usernames := by
  obtain ⟨generated, s', admitted, made⟩ := reaches
  rcases call.admit_cases range s with ⟨_, _, _, refused, -⟩ | ⟨given, _, went, -, usable⟩
  · rw [admitted] at refused
    cases refused
  · rw [admitted] at went
    cases went
    simp only [issued, usable, made]

/-- A record is as it was, or this mint's. -/
theorem recordAll_cases (i : Nat) (usernames : List String) (t : Credentials) (u : String) :
    (call.recordAll i usernames t).2.find? u = t.find? u ∨
      u ∈ usernames ∧ (call.recordAll i usernames t).2.find? u = some (call.row u) := by
  induction usernames generalizing i t with
  | nil => exact .inl rfl
  | cons username rest ih =>
    have changed (landed : Bool) : (if landed then t.upsert (call.row username) else t).find? u = t.find? u ∨
        u = username ∧ (if landed then t.upsert (call.row username) else t).find? u = some (call.row u) := by
      cases landed with
      | false => exact .inl rfl
      | true =>
        rw [if_pos rfl, Table.find?_upsert]
        by_cases own : username = u
        · subst own
          exact .inr ⟨rfl, if_pos rfl⟩
        · exact .inl (if_neg own)
    rw [recordAll]
    cases fault : call.recorded i with
    | some f =>
      rcases changed f.landed with same | ⟨rfl, mine⟩
      · exact .inl same
      · exact .inr ⟨List.mem_cons_self, mine⟩
    | none =>
      rcases ih (i + 1) (t.upsert (call.row username)) with same | ⟨member, mine⟩
      · rcases changed true with same' | ⟨rfl, mine⟩
        · exact .inl (same.trans same')
        · exact .inr ⟨List.mem_cons_self, same.trans mine⟩
      · exact .inr ⟨List.mem_cons_of_mem _ member, mine⟩

theorem recordAll_recorded {i : Nat} {usernames : List String} {t t' : Credentials}
    (recorded : call.recordAll i usernames t = (none, t')) : ∀ u ∈ usernames, t'.find? u = some (call.row u) := by
  induction usernames generalizing i t with
  | nil => exact List.forall_mem_nil _
  | cons username rest ih =>
    rw [recordAll] at recorded
    cases fault : call.recorded i with
    | some f =>
      rw [fault] at recorded
      cases recorded
    | none =>
      rw [fault] at recorded
      refine List.forall_mem_cons.mpr ⟨?_, ih recorded⟩
      have kept := call.recordAll_cases (i + 1) rest (t.upsert (call.row username)) username
      change call.recordAll (i + 1) rest (t.upsert (call.row username)) = (none, t') at recorded
      rw [recorded, Table.find?_upsert, if_pos (show (call.row username).username = username from rfl)] at kept
      exact kept.elim id And.right

/-- Recording fails where one of its statements does. -/
theorem recordAll_fails_iff (i : Nat) (usernames : List String) (t : Credentials) :
    (call.recordAll i usernames t).1.isSome = true ↔ ∃ k < usernames.length, (call.recorded (i + k)).isSome = true := by
  induction usernames generalizing i t with
  | nil => simp [recordAll]
  | cons username rest ih =>
    rw [recordAll]
    cases fault : call.recorded i with
    | some f => exact iff_of_true rfl ⟨0, Nat.zero_lt_succ _, by rw [Nat.add_zero, fault]; rfl⟩
    | none =>
      refine (ih (i + 1) (t.upsert (call.row username))).trans ⟨?_, ?_⟩
      · rintro ⟨k, inside, failed⟩
        exact ⟨k + 1, Nat.succ_lt_succ inside, by rwa [Nat.add_succ, ← Nat.succ_add]⟩
      · rintro ⟨k, inside, failed⟩
        cases k with
        | zero =>
          rw [Nat.add_zero, fault] at failed
          cases failed
        | succ k => exact ⟨k, Nat.lt_of_succ_lt_succ inside, by rwa [Nat.succ_add, ← Nat.add_succ]⟩

end MintCall

/-- What a mint does: it is refused or its provider fails, its recording fails, or it hands out what it recorded. -/
theorem mint_cases (range : Range) (call : MintCall) (s : TurnStore) :
    (HandsNothing (mint range call s).answer ∧ (mint range call s).store.credentials = s.credentials ∧
      ∀ u, .asked u ∉ (mint range call s).effects) ∨
    (∃ ice usernames e, call.Reaches range s ice usernames ∧ (call.recordAll 0 usernames s.credentials).1 = some e ∧
      (mint range call s).answer = unavailable "The credential could not be recorded; ask again." ∧
      (mint range call s).store.credentials = (call.recordAll 0 usernames s.credentials).2 ∧
      (mint range call s).effects = .generated :: .audit ("AUDIT turn.record FAILED: " ++ e) :: usernames.map .asked) ∨
    ∃ ice usernames, call.Reaches range s ice usernames ∧ (call.recordAll 0 usernames s.credentials).1 = none ∧
      (mint range call s).answer = MintCall.success ice call.expiresAt ∧
      (mint range call s).store.credentials = (call.recordAll 0 usernames s.credentials).2 ∧
      (mint range call s).effects = [.generated] := by
  rcases call.admit_cases range s with ⟨answer, effects, s', refused, same, nothing, silent⟩ |
    ⟨generated, s', went, same, -⟩
  · left
    rw [mint, refused]
    exact ⟨nothing, same, silent⟩
  · rw [mint, went]
    cases made : generated.bind iceServers with
    | error why =>
      dsimp only
      rw [made]
      exact .inl ⟨errorAnswer_handsNothing _ _ (by decide), same, fun u => by simp⟩
    | ok found =>
      obtain ⟨ice, usernames⟩ := found
      have reaches : call.Reaches range s ice usernames := ⟨generated, s', went, made⟩
      dsimp only
      rw [made]
      dsimp only
      rw [same]
      cases recorded : call.recordAll 0 usernames s.credentials with
      | mk error t =>
        cases error with
        | some e => exact .inr (.inl ⟨ice, usernames, e, reaches, by rw [recorded], rfl, by rw [recorded], rfl⟩)
        | none => exact .inr (.inr ⟨ice, usernames, reaches, by rw [recorded], rfl, by rw [recorded], rfl⟩)

/-! One revocation. -/

/-- What a revocation does: nothing, or it asks for a username that is recorded for the caller and, when it is answered,
forgets no other. -/
theorem revoke_cases (range : Range) (call : RevokeCall) (s : TurnStore) :
    ((revoke range call s).store = s ∧ ∀ u, .asked u ∉ (revoke range call s).effects) ∨
    ∃ username, readUsername range call.body = some username ∧ owner s.credentials username = some call.identity ∧
      (∀ u, .asked u ∈ (revoke range call s).effects ↔ u = username) ∧
      ((revoke range call s).store = s ∨ (revoke range call s).answer = revokedAnswer ∧
        (revoke range call s).store.credentials = forget username s.credentials) := by
  rw [revoke]
  split
  · exact .inl ⟨rfl, fun _ => List.not_mem_nil⟩
  · split
    · exact .inl ⟨rfl, fun _ => List.not_mem_nil⟩
    · next username read =>
      split
      · exact .inl ⟨rfl, fun _ => List.not_mem_nil⟩
      · split
        · exact .inl ⟨rfl, fun _ => by simp⟩
        · split
          · exact .inl ⟨rfl, fun _ => List.not_mem_nil⟩
          · next own =>
            refine .inr ⟨username, read, not_not.mp own, ?_⟩
            split
            · exact ⟨fun u => by simp, .inl rfl⟩
            · cases fault : call.forgotten with
              | none => exact ⟨fun u => by simp [attempt], .inr ⟨rfl, rfl⟩⟩
              | some f =>
                obtain ⟨landed, error⟩ := f
                cases landed with
                | false => exact ⟨fun u => by simp [attempt], .inl rfl⟩
                | true => exact ⟨fun u => by simp [attempt], .inr ⟨rfl, rfl⟩⟩

/-- A username of the caller reaches the provider, where nothing is in the way. -/
theorem revoke_asks {range : Range} {call : RevokeCall} {s : TurnStore} {u : String} {answer : Except String Unit}
    (on : call.deployment.on = true) (read : readUsername range call.body = some u) (usable : call.provider = some answer)
    (fine : call.ownerFault = none) (own : owner s.credentials u = some call.identity) :
    .asked u ∈ (revoke range call s).effects := by
  simp only [revoke, on, read, usable, fine, own, Bool.not_true, Bool.false_eq_true, if_false, ne_eq, not_true_eq_false]
  split
  · exact List.mem_cons_self
  · split <;> exact List.mem_cons_self

/-! Runs. -/

def Call.identity : Call → Option String
  | .mint m => some m.identity
  | .revoke r => some r.identity
  | .sweep _ => none

/-- The provider was asked for credentials of an identity, and its answer has the username. -/
structure Issues (identity u : String) (e : Served) (m : MintCall) : Prop where
  call : e.call = .mint m
  identity : m.identity = identity
  asked : .generated ∈ e.effects
  username : u ∈ m.issued

def Minted (identity u : String) (e : Served) : Prop :=
  ∃ m answer, Issues identity u e m ∧ e.answer = some answer ∧ answer.status = 200

def MintFailed (identity u : String) (e : Served) : Prop :=
  ∃ m answer, Issues identity u e m ∧ e.answer = some answer ∧ answer.status ≠ 200

/-- The provider is asked to revoke a username only for the identity it was minted for, or in the mint that failed. -/
def AskedByMinter (before : List Served) (e : Served) : Prop :=
  ∀ u, .asked u ∈ e.effects → ∃ identity, e.call.identity = some identity ∧
    (MintFailed identity u e ∨ ∃ earlier ∈ before, Minted identity u earlier ∨ MintFailed identity u earlier)

/-- Every record names the identity of a mint. -/
def Recorded (c : Library.Config TurnStore Served) : Prop :=
  ∀ u row, c.state.credentials.find? u = some row →
    ∃ e ∈ c.log, Minted row.identityKey u e ∨ MintFailed row.identityKey u e

theorem Recorded.of_old {c c' : Library.Config TurnStore Served} (recorded : Recorded c)
    (old : ∀ u row, c'.state.credentials.find? u = some row → c.state.credentials.find? u = some row)
    (grown : ∀ e ∈ c.log, e ∈ c'.log) : Recorded c' := by
  intro u row found
  obtain ⟨e, member, minted⟩ := recorded u row (old u row found)
  exact ⟨e, grown e member, minted⟩

theorem owner_eq_some {t : Credentials} {u identity : String} (owned : owner t u = some identity) :
    ∃ row, t.find? u = some row ∧ row.identityKey = identity := by
  rw [owner, Option.map_eq_some_iff] at owned
  exact owned

theorem find?_forget {t : Credentials} {username u : String} {row : CredentialRow}
    (found : (forget username t).find? u = some row) : t.find? u = some row := by
  rw [forget, Table.find?_delete] at found
  split at found
  · cases found
  · exact found

/-- One call keeps the records true and asks nothing for another. -/
theorem kept_advance (range : Range) (c : Library.Config TurnStore Served) (call : Call)
    (kept : Recorded c ∧ Preceded AskedByMinter c.log) :
    Recorded ((serve range).advance c call) ∧ Preceded AskedByMinter ((serve range).advance c call).log := by
  obtain ⟨recorded, asked⟩ := kept
  have grown : ∀ e ∈ c.log, e ∈ ((serve range).advance c call).log := fun e member => List.mem_append_left _ member
  cases call with
  | sweep w =>
    refine ⟨recorded.of_old (fun u row found => ?_) grown, asked.snoc (fun u never => nomatch never)⟩
    have swept : (attempt w.expired (fun t : Credentials => t.keep (fun row => asF64 (asI64 w.nowMs) ≤ row.expiresAt))
        c.state.credentials).2.find? u = some row := found
    unfold attempt at swept
    have kept {t : Credentials} (found : (t.keep (fun row => asF64 (asI64 w.nowMs) ≤ row.expiresAt)).find? u = some row) :
        t.find? u = some row := by
      rw [Table.find?_keep, Option.filter_eq_some_iff] at found
      exact found.1
    split at swept
    · exact kept swept
    · dsimp only at swept
      split at swept
      · exact kept swept
      · exact swept
  | revoke r =>
    rcases revoke_cases range r c.state with ⟨same, silent⟩ | ⟨username, -, own, only, after⟩
    · refine ⟨recorded.of_old (fun u row found => ?_) grown, asked.snoc (fun u inside => absurd inside (silent u))⟩
      have same' : ((serve range).advance c (.revoke r)).state = c.state := same
      rwa [same'] at found
    · constructor
      · refine recorded.of_old (fun u row found => ?_) grown
        have found' : (revoke range r c.state).store.credentials.find? u = some row := found
        rcases after with same | ⟨-, forgot⟩
        · rwa [same] at found'
        · rw [forgot] at found'
          exact find?_forget found'
      · apply asked.snoc
        intro u inside
        cases (only u).mp inside
        obtain ⟨row, found, named⟩ := owner_eq_some own
        exact ⟨r.identity, rfl, .inr (named ▸ recorded _ row found)⟩
  | mint m =>
    rcases mint_cases range m c.state with ⟨-, same, silent⟩ | ⟨ice, usernames, e, reaches, -, answer, after, effects⟩ |
      ⟨ice, usernames, reaches, -, answer, after, effects⟩
    · refine ⟨recorded.of_old (fun u row found => ?_) grown, asked.snoc (fun u inside => absurd inside (silent u))⟩
      have found' : (mint range m c.state).store.credentials.find? u = some row := found
      rwa [same] at found'
    · have issued := m.issued_of_reaches reaches
      have failed {u : String} (member : u ∈ usernames) :
          MintFailed m.identity u ⟨.mint m, some (mint range m c.state).answer, (mint range m c.state).effects⟩ := by
        refine ⟨m, _, ⟨rfl, rfl, ?_, issued.symm ▸ member⟩, rfl, ?_⟩
        · rw [effects]
          exact List.mem_cons_self
        · rw [answer]
          decide
      constructor
      · intro u row found
        have found' : (mint range m c.state).store.credentials.find? u = some row := found
        rw [after] at found'
        rcases m.recordAll_cases 0 usernames c.state.credentials u with same | ⟨member, mine⟩
        · obtain ⟨e, old, minted⟩ := recorded u row (same ▸ found')
          exact ⟨e, grown e old, minted⟩
        · rw [mine, Option.some.injEq] at found'
          subst found'
          exact ⟨_, List.mem_append_right _ List.mem_cons_self, .inr (failed member)⟩
      · apply asked.snoc
        intro u inside
        refine ⟨m.identity, rfl, .inl (failed ?_)⟩
        have inside' : .asked u ∈ (mint range m c.state).effects := inside
        rw [effects] at inside'
        simpa using inside'
    · have issued := m.issued_of_reaches reaches
      have minted {u : String} (member : u ∈ usernames) :
          Minted m.identity u ⟨.mint m, some (mint range m c.state).answer, (mint range m c.state).effects⟩ := by
        refine ⟨m, _, ⟨rfl, rfl, ?_, issued.symm ▸ member⟩, rfl, ?_⟩
        · rw [effects]
          exact List.mem_cons_self
        · rw [answer]
          rfl
      constructor
      · intro u row found
        have found' : (mint range m c.state).store.credentials.find? u = some row := found
        rw [after] at found'
        rcases m.recordAll_cases 0 usernames c.state.credentials u with same | ⟨member, mine⟩
        · obtain ⟨e, old, known⟩ := recorded u row (same ▸ found')
          exact ⟨e, grown e old, known⟩
        · rw [mine, Option.some.injEq] at found'
          subst found'
          exact ⟨_, List.mem_append_right _ List.mem_cons_self, .inl (minted member)⟩
      · apply asked.snoc
        intro u inside
        have inside' : .asked u ∈ (mint range m c.state).effects := inside
        rw [effects] at inside'
        simp at inside'

theorem kept_servedAll (range : Range) (calls : List Call) :
    Recorded (servedAll range calls) ∧ Preceded AskedByMinter (servedAll range calls).log :=
  @Machine.run_kept _ _ _ (serve range) (fun c => Recorded c ∧ Preceded AskedByMinter c.log) (kept_advance range)
    ⟨⟨.empty, .empty⟩, []⟩ ⟨fun _ _ found => (nomatch found), preceded_nil⟩ calls

/-! A provider that issues no username twice. -/

/-- The two were not given one username. -/
def Apart (a b : Served) : Prop := ∀ u one other m m', Issues one u a m → ¬ Issues other u b m'

instance : Std.Symm Apart := ⟨fun _ _ apart u one other m m' first second => apart u other one m' m second first⟩

/-- No two mints of the log were given one username. -/
def NeverTwice (log : List Served) : Prop := log.Pairwise Apart

theorem issues_of_minted {identity u : String} {e : Served} (minted : Minted identity u e ∨ MintFailed identity u e) :
    ∃ m, Issues identity u e m := by
  rcases minted with ⟨m, _, issues, -⟩ | ⟨m, _, issues, -⟩ <;> exact ⟨m, issues⟩

theorem same_identity {log : List Served} (unique : NeverTwice log) {e e' : Served} (member : e ∈ log)
    (member' : e' ∈ log) {identity identity' u : String} {m m' : MintCall} (issues : Issues identity u e m)
    (issues' : Issues identity' u e' m') : identity = identity' := by
  by_cases same : e = e'
  · subst same
    have calls := issues.call.symm.trans issues'.call
    cases calls
    exact issues.identity.symm.trans issues'.identity
  · exact absurd issues' (unique.forall member member' same u identity identity' m m' issues)

/-- A username is taken to the provider for nobody but the identity it was minted for. -/
theorem asked_alone {range : Range} {calls : List Call} (unique : NeverTwice (servedAll range calls).log)
    {e e' : Served} (member : e ∈ (servedAll range calls).log) (member' : e' ∈ (servedAll range calls).log)
    {identity u : String} (minted : Minted identity u e ∨ MintFailed identity u e) (asked : .asked u ∈ e'.effects) :
    e'.call.identity = some identity := by
  obtain ⟨m, issues⟩ := issues_of_minted minted
  obtain ⟨before, after, parts⟩ := List.append_of_mem member'
  obtain ⟨other, own, whence⟩ := (kept_servedAll range calls).2 before e' after parts u asked
  obtain ⟨e'', member'', minted''⟩ : ∃ e'' ∈ (servedAll range calls).log, Minted other u e'' ∨ MintFailed other u e'' := by
    rcases whence with failed | ⟨earlier, inside, known⟩
    · exact ⟨e', member', .inr failed⟩
    · exact ⟨earlier, parts ▸ List.mem_append_left _ inside, known⟩
  obtain ⟨m'', issues''⟩ := issues_of_minted minted''
  rw [own, same_identity unique member'' member issues'' issues]

/-- The username was revoked at the identity's word. -/
def Revoked (identity u : String) (e : Served) : Prop :=
  .asked u ∈ e.effects ∧ e.call.identity = some identity ∧ e.answer = some revokedAnswer

def SweptPast (expiresAt : Int) (e : Served) : Prop :=
  ∃ w, e.call = .sweep w ∧ expiresAt < asF64 (asI64 w.nowMs)

/-- A record stands through a call that is given no such username, unless its owner revokes it or it has expired. -/
theorem stands_step {range : Range} {c : Library.Config TurnStore Served} {call : Call} {u : String} {row : CredentialRow}
    (found : c.state.credentials.find? u = some row)
    (unissued : ∀ e ∈ ((serve range).step c.state call).2, ∀ identity m, ¬ Issues identity u e m) :
    ((serve range).advance c call).state.credentials.find? u = some row ∨
      ∃ e ∈ ((serve range).step c.state call).2, Revoked row.identityKey u e ∨ SweptPast row.expiresAt e := by
  cases call with
  | sweep w =>
    by_cases late : row.expiresAt < asF64 (asI64 w.nowMs)
    · exact .inr ⟨_, List.mem_cons_self, .inr ⟨w, rfl, late⟩⟩
    · left
      have kept : (c.state.credentials.keep (fun row => asF64 (asI64 w.nowMs) ≤ row.expiresAt)).find? u = some row := by
        rw [Table.find?_keep, found, Option.filter_some_pos (by simpa using not_lt.mp late)]
      change (attempt w.expired (fun t : Credentials => t.keep (fun row => asF64 (asI64 w.nowMs) ≤ row.expiresAt))
        c.state.credentials).2.find? u = some row
      unfold attempt
      split
      · exact kept
      · dsimp only
        split
        · exact kept
        · exact found
  | revoke r =>
    rcases revoke_cases range r c.state with ⟨same, -⟩ | ⟨username, -, own, only, after⟩
    · left
      have same' : ((serve range).advance c (.revoke r)).state = c.state := same
      rwa [same']
    · rcases after with same | ⟨answered, forgot⟩
      · left
        have same' : ((serve range).advance c (.revoke r)).state = c.state := same
        rwa [same']
      · by_cases named : username = u
        · subst named
          obtain ⟨row', found', identity⟩ := owner_eq_some own
          rw [found, Option.some.injEq] at found'
          subst found'
          refine .inr ⟨_, List.mem_cons_self, .inl ⟨(only _).mpr rfl, ?_, congrArg some answered⟩⟩
          exact congrArg some identity.symm
        · left
          change (revoke range r c.state).store.credentials.find? u = some row
          rw [forgot, forget, Table.find?_delete, if_neg named, found]
  | mint m =>
    left
    change (mint range m c.state).store.credentials.find? u = some row
    have others {usernames : List String} (fresh : u ∉ usernames) :
        (m.recordAll 0 usernames c.state.credentials).2.find? u = some row := by
      rcases m.recordAll_cases 0 usernames c.state.credentials u with same | ⟨member, -⟩
      · rw [same, found]
      · exact absurd member fresh
    rcases mint_cases range m c.state with ⟨-, same, -⟩ | ⟨ice, usernames, e, reaches, -, -, after, effects⟩ |
      ⟨ice, usernames, reaches, -, -, after, effects⟩
    · rw [same, found]
    · rw [after]
      refine others (fun member => ?_)
      refine unissued _ List.mem_cons_self m.identity m ⟨rfl, rfl, ?_, m.issued_of_reaches reaches ▸ member⟩
      rw [effects]
      exact List.mem_cons_self
    · rw [after]
      refine others (fun member => ?_)
      refine unissued _ List.mem_cons_self m.identity m ⟨rfl, rfl, ?_, m.issued_of_reaches reaches ▸ member⟩
      rw [effects]
      exact List.mem_cons_self

/-- A record stands through such calls. -/
theorem stands_run {range : Range} {c : Library.Config TurnStore Served} {calls : List Call} {u : String}
    {row : CredentialRow} (found : c.state.credentials.find? u = some row) {later : List Served}
    (grown : ((serve range).run c calls).log = c.log ++ later)
    (unissued : ∀ e ∈ later, ∀ identity m, ¬ Issues identity u e m) :
    ((serve range).run c calls).state.credentials.find? u = some row ∨
      ∃ e ∈ later, Revoked row.identityKey u e ∨ SweptPast row.expiresAt e := by
  induction calls generalizing c later with
  | nil => exact .inl found
  | cons call rest ih =>
    obtain ⟨more, whole⟩ := (serve range).log_isPrefix_run ((serve range).advance c call) rest
    have parts : later = ((serve range).step c.state call).2 ++ more := by
      rw [Machine.run_cons, ← whole, Machine.advance, List.append_assoc] at grown
      exact (List.append_cancel_left grown).symm
    subst parts
    have first := stands_step found (fun e member => unissued e (List.mem_append_left _ member))
    rcases first with stands | ⟨e, member, gone⟩
    · have later := ih stands whole.symm (fun e member => unissued e (List.mem_append_right _ member))
      rcases later with still | ⟨e, member, gone⟩
      · exact .inl still
      · exact .inr ⟨e, List.mem_append_right _ member, gone⟩
    · exact .inr ⟨e, List.mem_append_left _ member, gone⟩

/-! What is handed out, who can take it back. -/

/-- What one mint hands out, and what becomes of a mint whose recording fails. -/
structure MintKept (range : Range) (call : MintCall) (s : TurnStore) : Prop where
  handed : (mint range call s).answer.status = 200 → ∃ ice usernames,
    (mint range call s).answer.body.get "iceServers" = some (.array ice) ∧ Handed ice usernames ∧
      usernames = call.issued ∧ ∀ u ∈ usernames, owner (mint range call s).store.credentials u = some call.identity
  bare : (mint range call s).answer.status ≠ 200 → (mint range call s).answer.body.get "iceServers" = none
  unrecorded : ∀ ice usernames, call.Reaches range s ice usernames →
    ((mint range call s).answer.status = 200 ↔ ∀ k < usernames.length, call.recorded k = none) ∧
    ((∃ k < usernames.length, (call.recorded k).isSome = true) →
      ∀ u ∈ usernames, .asked u ∈ (mint range call s).effects)

theorem reaches_unique {range : Range} {call : MintCall} {s : TurnStore} {ice ice' : List Value}
    {usernames usernames' : List String} (one : call.Reaches range s ice usernames)
    (other : call.Reaches range s ice' usernames') : usernames = usernames' :=
  (call.issued_of_reaches one).symm.trans (call.issued_of_reaches other)

theorem mint_reached {range : Range} {call : MintCall} {s : TurnStore} {ice : List Value} {usernames : List String}
    (reaches : call.Reaches range s ice usernames) :
    (mint range call s).answer.status = 200 ∧ (call.recordAll 0 usernames s.credentials).1 = none ∨
    (mint range call s).answer.status ≠ 200 ∧ (call.recordAll 0 usernames s.credentials).1.isSome = true ∧
      ∀ u ∈ usernames, .asked u ∈ (mint range call s).effects := by
  obtain ⟨generated, s', went, made⟩ := reaches
  have same : s'.credentials = s.credentials := by
    rcases call.admit_cases range s with ⟨_, _, _, refused, -⟩ | ⟨_, _, went', same, -⟩
    · rw [went] at refused
      cases refused
    · rw [went] at went'
      cases went'
      exact same
  rw [mint, went]
  dsimp only
  rw [made]
  dsimp only
  rw [same]
  cases call.recordAll 0 usernames s.credentials with
  | mk error t =>
    cases error with
    | none => exact .inl ⟨rfl, rfl⟩
    | some e => exact .inr ⟨by simp [unavailable, errorAnswer], rfl, fun u member => by simpa using member⟩

theorem mintKept (range : Range) (call : MintCall) (s : TurnStore) : MintKept range call s where
  handed := by
    intro success
    rcases mint_cases range call s with ⟨nothing, -⟩ | ⟨_, _, _, -, -, answer, -⟩ |
      ⟨ice, usernames, reaches, recorded, answer, after, -⟩
    · exact absurd success nothing.status
    · rw [answer] at success
      exact absurd success (by decide)
    · obtain ⟨generated, s', went, made⟩ := reaches
      have handed : Handed ice usernames := by
        cases generated with
        | error why => cases made
        | ok answered => exact iceServers_handed made
      refine ⟨ice, usernames, by rw [answer]; rfl, handed, (call.issued_of_reaches ⟨_, _, went, made⟩).symm, ?_⟩
      intro u member
      have row := call.recordAll_recorded (t := s.credentials) (Prod.ext recorded rfl) u member
      rw [owner, after, row]
      rfl
  bare := by
    intro failure
    rcases mint_cases range call s with ⟨nothing, -⟩ | ⟨_, _, _, -, -, answer, -⟩ | ⟨_, _, -, -, answer, -⟩
    · exact nothing.bare
    · rw [answer]
      rfl
    · rw [answer] at failure
      exact absurd rfl failure
  unrecorded := by
    intro ice usernames reaches
    have fails := call.recordAll_fails_iff 0 usernames s.credentials
    simp only [Nat.zero_add] at fails
    rcases mint_reached reaches with ⟨success, recorded⟩ | ⟨failure, failed, asked⟩
    · have fine : ¬ ∃ k < usernames.length, (call.recorded k).isSome = true := by
        rw [← fails, recorded]
        decide
      refine ⟨iff_of_true success (fun k inside => ?_), fun failed => absurd failed fine⟩
      rw [← Option.not_isSome_iff_eq_none]
      exact fun failed => fine ⟨k, inside, failed⟩
    · refine ⟨iff_of_false failure (fun fine => ?_), fun _ => asked⟩
      obtain ⟨k, inside, broken⟩ := fails.mp failed
      rw [fine k inside] at broken
      cases broken

/-- What a run keeps of the credentials it handed out, where no username is issued twice. -/
structure OwnedAlone (range : Range) (calls : List Call) : Prop where
  alone : ∀ e ∈ (servedAll range calls).log, ∀ identity u, Minted identity u e ∨ MintFailed identity u e →
    ∀ e' ∈ (servedAll range calls).log, .asked u ∈ e'.effects → e'.call.identity = some identity
  /-- A username that was handed out stays its identity's until that identity has it revoked or it expires. -/
  standing : ∀ front m back u, calls = front ++ .mint m :: back →
    (mint range m (servedAll range front).state).answer.status = 200 → u ∈ m.issued →
    owner (servedAll range calls).state.credentials u = some m.identity ∨
    ∃ later, (servedAll range calls).log = (servedAll range (front ++ [.mint m])).log ++ later ∧
      ∃ e ∈ later, Revoked m.identity u e ∨ SweptPast (m.row u).expiresAt e

theorem ownedAlone {range : Range} {calls : List Call} (unique : NeverTwice (servedAll range calls).log) :
    OwnedAlone range calls where
  alone := fun _ member _ _ minted _ member' asked => asked_alone unique member member' minted asked
  standing := by
    intro front m back u parts success issued
    have run : servedAll range calls = (serve range).run (servedAll range (front ++ [.mint m])) back := by
      rw [servedAll, parts, List.append_cons, Machine.run_append]
      rfl
    have first : servedAll range (front ++ [.mint m]) = (serve range).advance (servedAll range front) (.mint m) := by
      rw [servedAll, Machine.run_append]
      rfl
    rcases mint_cases range m (servedAll range front).state with ⟨nothing, -⟩ | ⟨_, _, _, -, -, answer, -⟩ |
      ⟨ice, usernames, reaches, recorded, answer, after, effects⟩
    · exact absurd success nothing.status
    · rw [answer] at success
      exact absurd success (by decide)
    · have member : u ∈ usernames := m.issued_of_reaches reaches ▸ issued
      have row : (servedAll range (front ++ [.mint m])).state.credentials.find? u = some (m.row u) := by
        rw [first]
        change (mint range m (servedAll range front).state).store.credentials.find? u = _
        rw [after]
        exact m.recordAll_recorded (t := (servedAll range front).state.credentials) (Prod.ext recorded rfl) u member
      obtain ⟨later, grown⟩ := (serve range).log_isPrefix_run (servedAll range (front ++ [.mint m])) back
      have own : ∃ e ∈ (servedAll range (front ++ [.mint m])).log, Issues m.identity u e m := by
        rw [first]
        refine ⟨_, List.mem_append_right _ List.mem_cons_self, rfl, rfl, ?_, issued⟩
        rw [effects]
        exact List.mem_cons_self
      have unissued : ∀ e ∈ later, ∀ identity m', ¬ Issues identity u e m' := by
        intro e inside identity m' again
        obtain ⟨e', before, once⟩ := own
        rw [run, ← grown] at unique
        exact (List.pairwise_append.mp unique).2.2 e' before e inside u m.identity identity m m' once again
      rcases stands_run row grown.symm unissued with stands | gone
      · left
        rw [run, owner, stands]
        rfl
      · exact .inr ⟨later, by rw [run, ← grown], gone⟩

/-- A credential is recorded before it is handed out, and is its owner's alone to revoke. -/
theorem credentials_owned (range : Range) :
    (∀ call s, MintKept range call s) ∧
    (∀ calls, Preceded AskedByMinter (servedAll range calls).log) ∧
    (∀ calls, NeverTwice (servedAll range calls).log → OwnedAlone range calls) ∧
    ∀ (call : RevokeCall) (s : TurnStore) (u : String), call.deployment.on = true → readUsername range call.body = some u →
      call.provider.isSome = true → call.ownerFault = none → owner s.credentials u = some call.identity →
      .asked u ∈ (revoke range call s).effects := by
  refine ⟨mintKept range, fun calls => (kept_servedAll range calls).2, fun calls unique => ownedAlone unique, ?_⟩
  intro call s u on read usable fine own
  obtain ⟨answer, known⟩ := Option.isSome_iff_exists.mp usable
  exact revoke_asks on read known fine own

/-! A username too long to be revoked. -/

/-- The provider is asked for no username longer than a revocation may name. -/
theorem revoke_short {range : Range} {call : RevokeCall} {s : TurnStore} {u : String}
    (asked : .asked u ∈ (revoke range call s).effects) : u.length ≤ maxUsernameChars := by
  rcases revoke_cases range call s with ⟨-, silent⟩ | ⟨username, read, -, only, -⟩
  · exact absurd asked (silent u)
  · cases (only u).mp asked
    have short := (Option.filter_eq_some_iff.mp read).2
    rw [Bool.and_eq_true, decide_eq_true_eq, decide_eq_true_eq] at short
    exact short.2

def serverEntry (username : String) : Value :=
  .object [("credential", .string "secret"), ("urls", .string "turn:turn.example:3478"), ("username", .string username)]

/-- A provider's answer of one entry. -/
def oneServer (username : String) : Value := .object [("iceServers", .array [serverEntry username])]

theorem add_serverEntry {username : String} (written : username ≠ "") :
    Gathered.add ⟨[], [], [], 0⟩ (serverEntry username) =
      ⟨[], [turnEntry ["turn:turn.example:3478"] username "secret"], [username], 1⟩ := by
  have urls : usableUrls (serverEntry username) = ["turn:turn.example:3478"] := by
    have listed : (serverEntry username).get "urls" = some (.string "turn:turn.example:3478") := rfl
    rw [usableUrls, listed]
    decide
  have turn : (["turn:turn.example:3478"].filter isTurnUrl).take (maxTurnUrls - 0) = ["turn:turn.example:3478"] := by
    decide
  have stun : ["turn:turn.example:3478"].foldl Gathered.addStun [] = [] := by decide
  have named : ((serverEntry username).get "username").bind nonEmpty = some username := by
    have given : (serverEntry username).get "username" = some (.string username) := rfl
    rw [given, Option.bind_some, nonEmpty, Value.asStr, Option.filter_some_pos (by simpa using written)]
  have credited : ((serverEntry username).get "credential").bind nonEmpty = some "secret" := by
    have given : (serverEntry username).get "credential" = some (.string "secret") := rfl
    rw [given]
    decide
  rw [Gathered.add, urls]
  simp only [turn, stun, named, credited]
  rfl

theorem iceServers_oneServer {username : String} (written : username ≠ "") :
    iceServers (oneServer username) = .ok ([turnEntry ["turn:turn.example:3478"] username "secret"], [username]) := by
  have entries : answerEntries (oneServer username) = [serverEntry username] := rfl
  have objects : [serverEntry username].filter isObject = [serverEntry username] := rfl
  rw [iceServers, entries]
  simp only [objects, List.foldl_cons, List.foldl_nil, add_serverEntry written]
  rfl

/-- A mint that nothing goes wrong with, given a username. -/
def plainMint (username : String) : MintCall where
  deployment := ⟨true, 3600, defaultConfig⟩
  identity := "02ab"
  source := ⟨"203.0.113.7", none⟩
  body := []
  start := 1793952000000
  started := 1793952000000
  charged := none
  provider := some (.ok (oneServer username))
  recorded := fun _ => none

theorem plainMint_reaches {username : String} (written : username ≠ "") :
    (plainMint username).Reaches everyNumber ⟨.empty, .empty⟩ [turnEntry ["turn:turn.example:3478"] username "secret"]
      [username] := by
  have window : windowOf ((plainMint username).start / 1000) = 1793952000 := by
    change windowOf (1793952000000 / 1000) = 1793952000
    decide
  have charged : (charge 1793952000 (charges defaultConfig "02ab" ⟨"203.0.113.7", none⟩) .empty).1 = none := by
    refine (charge_taken ⟨by decide, by decide⟩ (charges_unique ..) ?_).1
    decide
  have admitted : ((plainMint username).permit everyNumber ⟨.empty, .empty⟩).1 = .ok (.ok (oneServer username)) := by
    rw [MintCall.permit, window]
    simp only [plainMint, charged, attempt, callerRule, List.all_nil]
    rfl
  exact ⟨_, _, Prod.ext admitted rfl, iceServers_oneServer written⟩

def ownRevocation : RevokeCall where
  deployment := ⟨true, 3600, defaultConfig⟩
  identity := "02ab"
  body := utf8Bytes (Value.object [("username", .string "user1")]).text
  provider := some (.ok ())
  ownerFault := none
  forgotten := none

theorem readUsername_ownRevocation : readUsername everyNumber ownRevocation.body = some "user1" := by
  have written : Value.Writable everyNumber 127 (.object [("username", .string "user1")]) :=
    .object (List.pairwise_singleton ..) (List.forall_mem_singleton.mpr .string)
  rw [readUsername, ownRevocation, Value.fromSlice_text written]
  decide

/-- The credential of a mint is its identity's, and the identity's revocation takes it to the provider. -/
theorem ownRevocation_asks :
    owner (servedAll everyNumber [.mint (plainMint "user1")]).state.credentials "user1" = some "02ab" ∧
      .asked "user1" ∈
        (revoke everyNumber ownRevocation (servedAll everyNumber [.mint (plainMint "user1")]).state).effects := by
  obtain ⟨kept, -, alone, asks⟩ := credentials_owned everyNumber
  have reaches := plainMint_reaches (show "user1" ≠ "" by decide)
  have success := ((kept (plainMint "user1") ⟨.empty, .empty⟩).unrecorded _ _ reaches).1.mpr (fun _ _ => rfl)
  have issued : "user1" ∈ (plainMint "user1").issued := by
    rw [(plainMint "user1").issued_of_reaches reaches]
    exact List.mem_cons_self
  have unique : NeverTwice (servedAll everyNumber [.mint (plainMint "user1")]).log := List.pairwise_singleton ..
  have own : owner (servedAll everyNumber [.mint (plainMint "user1")]).state.credentials "user1" = some "02ab" := by
    rcases (alone _ unique).standing [] _ [] "user1" rfl success issued with own | ⟨later, same, e, inside, -⟩
    · exact own
    · rw [List.nil_append, List.self_eq_append_right] at same
      rw [same] at inside
      cases inside
  exact ⟨own, asks ownRevocation _ "user1" rfl readUsername_ownRevocation rfl rfl own⟩

def longUsername : String := String.ofList (List.replicate 257 'a')

theorem length_replicated (n : Nat) (c : Char) : (String.ofList (List.replicate n c)).length = n := by
  rw [String.length_ofList, List.length_replicate]

theorem longUsername_length : longUsername.length = 257 := length_replicated 257 'a'

/-- It is handed out and recorded, and no revocation takes it to the provider. -/
theorem longUsername_irrevocable :
    (mint everyNumber (plainMint longUsername) ⟨.empty, .empty⟩).answer.status = 200 ∧
      longUsername ∈ (plainMint longUsername).issued ∧
      owner (mint everyNumber (plainMint longUsername) ⟨.empty, .empty⟩).store.credentials longUsername = some "02ab" ∧
      ∀ (range : Range) (call : RevokeCall) (s : TurnStore), .asked longUsername ∉ (revoke range call s).effects := by
  have written : longUsername ≠ "" := by
    intro empty
    have length := longUsername_length
    rw [empty] at length
    exact absurd length (by decide)
  have reaches := plainMint_reaches written
  have kept := mintKept everyNumber (plainMint longUsername) ⟨.empty, .empty⟩
  have success := (kept.unrecorded _ _ reaches).1.mpr (fun _ _ => rfl)
  have issued : longUsername ∈ (plainMint longUsername).issued := by
    rw [(plainMint longUsername).issued_of_reaches reaches]
    exact List.mem_cons_self
  obtain ⟨_, _, -, -, same, owned⟩ := kept.handed success
  refine ⟨success, issued, owned _ (same ▸ issued), fun range call s asked => ?_⟩
  have short := revoke_short asked
  rw [longUsername_length] at short
  exact absurd short (by decide)

end MessageRelay.Turn
