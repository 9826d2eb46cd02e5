import MessageRelay.Lane.MirrorHubs

/-! No request of the HTTP lane is accepted twice while a lane's replay window lives in one place. A
mirror is created blank, so a mirror created while another copy lives, or after one with accepted
counters is gone, forgets what was accepted. -/

namespace MessageRelay.Lane
open MessageRelay.Library

/-- Over the whole run, for each session every counter is answered ok at most once. -/
def AcceptedOnce (log : List Verified) : Prop :=
  (log.map (fun e => (e.id, e.h))).Nodup

instance (log : List Verified) : Decidable (AcceptedOnce log) :=
  inferInstanceAs (Decidable (List.Nodup _))

/-- A mirror is created only for a session of which nothing was accepted and no copy exists, and a
mirror handed over is deleted where it was. -/
def WindowKept (c : Config MirrorHubs Verified) : MirrorInput → Prop
  | .upsert hubClass hub identityKey update io =>
    createsMirror c.state.mirrors hubClass hub identityKey update io = true →
      (∀ e ∈ c.log, e.id ≠ update.id) ∧ ∀ m ∈ c.state.copies, m.id ≠ update.id
  | .take _ io => io.deleted = true
  | _ => True

instance (c : Config MirrorHubs Verified) (input : MirrorInput) : Decidable (WindowKept c input) := by
  cases input <;> unfold WindowKept <;> infer_instance

/-- The counters of one session answered ok so far. -/
def acceptedOf (log : List Verified) (id : String) (h : Nat) : Prop :=
  ∃ e ∈ log, e.id = id ∧ e.h = h

structure OneWindow (c : Config MirrorHubs Verified) : Prop where
  ownId : ∀ k m, c.state.mirrors.lookup k = some m → m.id = k.id
  alone : ∀ p q m m', c.state.copyAt p = some m → c.state.copyAt q = some m' → m.id = m'.id → p = q
  tracked : ∀ p m, c.state.copyAt p = some m → m.window.Tracks (acceptedOf c.log m.id)
  once : AcceptedOnce c.log

theorem oneWindow_start : OneWindow ⟨MirrorHubs.start, []⟩ :=
  { ownId := fun _ _ held => (by cases held),
    alone := fun p _ _ _ held => (by cases p <;> cases held),
    tracked := fun p _ held => (by cases p <;> cases held),
    once := List.nodup_nil }

/-- Copies may disappear or move, as long as no two come from one. -/
theorem OneWindow.moved {s s' : MirrorHubs} {log : List Verified} (inv : OneWindow ⟨s, log⟩)
    (ownId : ∀ k m, s'.mirrors.lookup k = some m → m.id = k.id) (origin : Place → Place)
    (came : ∀ p m', s'.copyAt p = some m' →
      ∃ m, s.copyAt (origin p) = some m ∧ m'.id = m.id ∧ m'.window = m.window)
    (apart : ∀ p q, (s'.copyAt p).isSome → (s'.copyAt q).isSome → origin p = origin q → p = q) :
    OneWindow ⟨s', log⟩ := by
  refine { ownId, alone := ?_, tracked := ?_, once := inv.once }
  · intro p q m m' heldP heldQ same
    obtain ⟨before, atP, idP, -⟩ := came p m heldP
    obtain ⟨before', atQ, idQ, -⟩ := came q m' heldQ
    apply apart p q (by simp [heldP]) (by simp [heldQ])
    exact inv.alone _ _ _ _ atP atQ (idP.symm.trans (same.trans idQ))
  · intro p m held
    obtain ⟨before, atP, id, window⟩ := came p m held
    rw [id, window]
    exact inv.tracked _ _ atP

/-- Mirrors refreshed or deleted in place. -/
theorem OneWindow.keeps {s : MirrorHubs} {log : List Verified} {mirrors : MirrorTable}
    (inv : OneWindow ⟨s, log⟩) (keeps : Keeps s.mirrors mirrors) : OneWindow ⟨{ s with mirrors }, log⟩ := by
  apply inv.moved _ id
  · intro p m' held
    cases p with
    | stored key => exact keeps key m' held
    | carried p => exact ⟨m', held, rfl, rfl⟩
  · intro p q _ _ same
    exact same
  · intro k m' held
    obtain ⟨m, before, own, -⟩ := keeps k m' held
    exact own.trans (inv.ownId k m before)

/-- Tasks that drop what they carry, or carry nothing. -/
theorem OneWindow.tasks {s : MirrorHubs} {log : List Verified} {tasks : AList (fun _ : Nat => VerifyTask)}
    (inv : OneWindow ⟨s, log⟩)
    (carried : ∀ p m, (tasks.lookup p).bind VerifyTask.carried = some m →
      (s.tasks.lookup p).bind VerifyTask.carried = some m) : OneWindow ⟨{ s with tasks }, log⟩ := by
  apply inv.moved _ id
  · intro p m' held
    cases p with
    | stored key => exact ⟨m', held, rfl, rfl⟩
    | carried p => exact ⟨m', carried p m' held, rfl, rfl⟩
  · intro p q _ _ same
    exact same
  · exact inv.ownId

theorem OneWindow.setTask {s : MirrorHubs} {log : List Verified} (inv : OneWindow ⟨s, log⟩) (p : Nat)
    {task : VerifyTask} (empty : task.carried = none) : OneWindow ⟨s.setTask p task, log⟩ := by
  apply inv.tasks
  intro q m held
  by_cases same : q = p
  · subst same
    rw [AList.lookup_insert, Option.bind_some, empty] at held
    cases held
  · rwa [AList.lookup_insert_ne same] at held

theorem OneWindow.dropTask {s : MirrorHubs} {log : List Verified} (inv : OneWindow ⟨s, log⟩) (p : Nat) :
    OneWindow ⟨s.dropTask p, log⟩ := by
  apply inv.tasks
  intro q m held
  by_cases same : q = p
  · subst same
    rw [AList.lookup_erase, Option.bind_none] at held
    cases held
  · rwa [AList.lookup_erase_ne same] at held

theorem OneWindow.created {s : MirrorHubs} {log : List Verified} (inv : OneWindow ⟨s, log⟩)
    {hubClass : HubClass} {hub identityKey : String} {update : MirrorUpdate}
    (unaccepted : ∀ e ∈ log, e.id ≠ update.id) (absent : ∀ m ∈ s.copies, m.id ≠ update.id) :
    OneWindow ⟨s.withMirror ⟨hubClass, hub, update.id⟩ (HubMirror.new identityKey update), log⟩ := by
  have added : ∀ p m,
      (s.withMirror ⟨hubClass, hub, update.id⟩ (HubMirror.new identityKey update)).copyAt p = some m →
      (p = .stored ⟨hubClass, hub, update.id⟩ ∧ m = HubMirror.new identityKey update) ∨
        (s.copyAt p = some m ∧ m.id ≠ update.id) := by
    intro p m held
    by_cases same : p = .stored ⟨hubClass, hub, update.id⟩
    · subst same
      rw [MirrorHubs.copyAt_withMirror_self] at held
      exact .inl ⟨rfl, (Option.some.inj held).symm⟩
    · rw [MirrorHubs.copyAt_withMirror_of_ne same] at held
      exact .inr ⟨held, absent m (MirrorHubs.mem_copies held)⟩
  refine { ownId := ?_, alone := ?_, tracked := ?_, once := inv.once }
  · intro k m held
    obtain ⟨stored, rfl⟩ | ⟨before, -⟩ := added (.stored k) m held
    · cases stored
      rfl
    · exact inv.ownId k m before
  · intro p q m m' heldP heldQ same
    obtain ⟨rfl, rfl⟩ | ⟨beforeP, otherP⟩ := added p m heldP <;>
      obtain ⟨rfl, rfl⟩ | ⟨beforeQ, otherQ⟩ := added q m' heldQ
    · rfl
    · exact absurd same.symm otherQ
    · exact absurd same otherP
    · exact inv.alone p q m m' beforeP beforeQ same
  · intro p m held
    obtain ⟨rfl, rfl⟩ | ⟨before, -⟩ := added p m held
    · apply ReplayWindow.Tracks.of_none
      intro h taken
      obtain ⟨e, logged, same, -⟩ := taken
      exact unaccepted e logged same
    · exact inv.tracked p m before

theorem OneWindow.upserted {s : MirrorHubs} {log : List Verified} (inv : OneWindow ⟨s, log⟩)
    {hubClass : HubClass} {hub identityKey : String} {update : MirrorUpdate} {io : StorageAnswers}
    (kept : WindowKept ⟨s, log⟩ (.upsert hubClass hub identityKey update io)) :
    OneWindow ⟨{ s with mirrors := upsertSessionMirror s.mirrors hubClass hub identityKey update io }, log⟩ := by
  cases upsertSessionMirror_cases s.mirrors hubClass hub identityKey update io with
  | inl created =>
    rw [created.2]
    exact inv.created (kept created.1).1 (kept created.1).2
  | inr keeps => exact inv.keeps keeps

theorem acceptedOf_snoc (log : List Verified) (e : Verified) (id : String) (h : Nat) :
    acceptedOf (log ++ [e]) id h ↔ acceptedOf log id h ∨ (e.id = id ∧ e.h = h) := by
  simp only [acceptedOf, List.mem_append, List.mem_singleton]
  constructor
  · intro taken
    obtain ⟨e', logged | rfl, same⟩ := taken
    · exact .inl ⟨e', logged, same⟩
    · exact .inr same
  · intro taken
    cases taken with
    | inl earlier =>
      obtain ⟨e', logged, same⟩ := earlier
      exact ⟨e', .inl logged, same⟩
    | inr last => exact ⟨e, .inr rfl, last⟩

/-- A fresh counter of the one copy is accepted. -/
theorem OneWindow.accepted {s : MirrorHubs} {log : List Verified} (inv : OneWindow ⟨s, log⟩)
    {hubClass : HubClass} {hub id : String} {m : HubMirror} {h expiresAtMs : Nat}
    (held : s.mirrors.lookup ⟨hubClass, hub, id⟩ = some m) (unseen : m.window.fresh h = true) :
    OneWindow
      ⟨s.withMirror ⟨hubClass, hub, id⟩ { m.acceptCounter h with expiresAtMs := expiresAtMs },
        log ++ [⟨hubClass, hub, id, h⟩]⟩ := by
  have ownId : m.id = id := inv.ownId _ _ held
  have tracks : m.window.Tracks (acceptedOf log id) :=
    ownId ▸ inv.tracked (.stored ⟨hubClass, hub, id⟩) m held
  have after : ∀ p m',
      (s.withMirror ⟨hubClass, hub, id⟩ { m.acceptCounter h with expiresAtMs := expiresAtMs }).copyAt p = some m' →
      (p = .stored ⟨hubClass, hub, id⟩ ∧ m'.id = id ∧ m'.window = m.window.accept h) ∨
        (s.copyAt p = some m' ∧ m'.id ≠ id) := by
    intro p m' lookup
    by_cases same : p = .stored ⟨hubClass, hub, id⟩
    · subst same
      rw [MirrorHubs.copyAt_withMirror_self] at lookup
      cases lookup
      exact .inl ⟨rfl, (HubMirror.acceptCounter_id m h).trans ownId, HubMirror.acceptCounter_window m h⟩
    · rw [MirrorHubs.copyAt_withMirror_of_ne same] at lookup
      refine .inr ⟨lookup, fun equal => same ?_⟩
      exact inv.alone p (.stored ⟨hubClass, hub, id⟩) m' m lookup held (equal.trans ownId.symm)
  refine { ownId := ?_, alone := ?_, tracked := ?_, once := ?_ }
  · intro k m' lookup
    obtain ⟨stored, own, -⟩ | ⟨before, -⟩ := after (.stored k) m' lookup
    · cases stored
      exact own
    · exact inv.ownId k m' before
  · intro p q a b heldP heldQ same
    obtain ⟨rfl, ownP, -⟩ | ⟨beforeP, otherP⟩ := after p a heldP <;>
      obtain ⟨rfl, ownQ, -⟩ | ⟨beforeQ, otherQ⟩ := after q b heldQ
    · rfl
    · exact absurd (same.symm.trans ownP) otherQ
    · exact absurd (same.trans ownQ) otherP
    · exact inv.alone p q a b beforeP beforeQ same
  · intro p m' lookup
    obtain ⟨-, own, window⟩ | ⟨before, other⟩ := after p m' lookup
    · rw [own, window]
      intro k taken
      apply tracks.accept h k
      cases (acceptedOf_snoc log _ id k).mp taken with
      | inl earlier => exact .inl earlier
      | inr last => exact .inr last.2.symm
    · intro k taken
      apply inv.tracked p m' before k
      cases (acceptedOf_snoc log _ m'.id k).mp taken with
      | inl earlier => exact earlier
      | inr last => exact absurd last.1.symm other
  · unfold AcceptedOnce
    rw [List.map_append, List.nodup_append]
    refine ⟨inv.once, List.nodup_singleton _, ?_⟩
    intro earlier logged last single same
    rw [List.map_singleton, List.mem_singleton] at single
    subst single
    obtain ⟨e, mem, rfl⟩ := List.mem_map.mp logged
    have taken : acceptedOf log id h := ⟨e, mem, congrArg Prod.fst same, congrArg Prod.snd same⟩
    have seen := tracks.not_fresh taken
    rw [unseen] at seen
    cases seen

theorem OneWindow.verified {s : MirrorHubs} {log : List Verified} (inv : OneWindow ⟨s, log⟩)
    (crypto : Crypto) (hubClass : HubClass) (hub : String) (body : SessionVerifyBody) (nowMs : Nat)
    (io : StorageAnswers) :
    OneWindow ⟨(s.verifyAt crypto hubClass hub body nowMs io).1,
      log ++ (s.verifyAt crypto hubClass hub body nowMs io).2⟩ := by
  unfold MirrorHubs.verifyAt
  cases verifySession_cases crypto s.mirrors hubClass hub body nowMs io with
  | inl ok =>
    obtain ⟨m, identity, key, held, unseen, answer⟩ := ok
    rw [answer]
    exact inv.accepted held unseen
  | inr refused =>
    obtain ⟨reason, answer, keeps⟩ := refused
    cases outcome : verifySession crypto s.mirrors hubClass hub body nowMs io with
    | mk answer' mirrors =>
      rw [outcome] at answer keeps
      subst answer
      rw [List.append_nil]
      exact inv.keeps keeps

/-- One copy moves to another place. -/
theorem OneWindow.relocated {s s' : MirrorHubs} {log : List Verified} (inv : OneWindow ⟨s, log⟩)
    (ownId : ∀ k m, s'.mirrors.lookup k = some m → m.id = k.id) (old new : Place) {mirror : HubMirror}
    (held : s.copyAt old = some mirror) (arrived : s'.copyAt new = some mirror)
    (left : s'.copyAt old = none)
    (others : ∀ p, p ≠ new → ∀ m, s'.copyAt p = some m → s.copyAt p = some m) : OneWindow ⟨s', log⟩ := by
  apply inv.moved ownId (fun p => if p = new then old else p)
  · intro p m found
    by_cases here : p = new
    · subst here
      rw [arrived] at found
      cases found
      exact ⟨mirror, by simpa using held, rfl, rfl⟩
    · exact ⟨m, by simpa [here] using others p here m found, rfl, rfl⟩
  · intro p q heldP heldQ same
    have gone : ∀ place, (s'.copyAt place).isSome → place ≠ old := by
      intro place some here
      rw [here, left] at some
      cases some
    split at same <;> split at same
    · simp_all
    · exact absurd same.symm (gone q heldQ)
    · exact absurd same (gone p heldP)
    · exact same

theorem OneWindow.taken {s : MirrorHubs} {log : List Verified} (inv : OneWindow ⟨s, log⟩) (p : Nat)
    {io : StorageAnswers} (deleted : io.deleted = true) : OneWindow ⟨s.takeStep p io, log⟩ := by
  unfold MirrorHubs.takeStep
  split
  next hub body asking =>
    split
    next mirror mirrors answer =>
      obtain ⟨held, rfl⟩ := handleSessionTake_some answer
      simp only [MirrorTable.delete, if_pos deleted]
      have stays := Keeps.erase s.mirrors ⟨.messageHub, body.identity, body.id⟩
      apply inv.relocated _ (.stored ⟨.messageHub, body.identity, body.id⟩) (.carried p) held
      · simp [MirrorHubs.copyAt, MirrorHubs.setTask, VerifyTask.carried]
      · exact AList.lookup_erase _ _
      · intro place away m found
        cases place with
        | stored key =>
          by_cases same : key = ⟨.messageHub, body.identity, body.id⟩
          · subst same
            cases (AList.lookup_erase _ _).symm.trans found
          · exact (AList.lookup_erase_ne same).symm.trans found
        | carried q =>
          have other : q ≠ p := fun same => away (congrArg Place.carried same)
          simpa [MirrorHubs.copyAt, MirrorHubs.setTask, AList.lookup_insert_ne other] using found
      · intro k m found
        obtain ⟨m', before, own, -⟩ := stays k m found
        exact own.trans (inv.ownId k m' before)
    next mirrors answer =>
      have keeps := handleSessionTake_keeps s.mirrors .messageHub body.identity body.id body.identity io
      rw [answer] at keeps
      exact (inv.keeps keeps).setTask p rfl
  next => exact inv

theorem OneWindow.kept {s : MirrorHubs} {log : List Verified} (inv : OneWindow ⟨s, log⟩) (p : Nat)
    (io : StorageAnswers) : OneWindow ⟨s.keepStep p io, log⟩ := by
  unfold MirrorHubs.keepStep
  split
  next hub body mirror handed =>
    have held : s.copyAt (.carried p) = some mirror := by
      simp [MirrorHubs.copyAt, handed, VerifyTask.carried]
    unfold keepSessionMirror MirrorTable.put
    split
    · apply inv.relocated _ (.carried p) (.stored ⟨.messageHubSql, hub, mirror.id⟩) held
      · exact MirrorHubs.copyAt_withMirror_self s _ mirror
      · simp [MirrorHubs.copyAt, MirrorHubs.setTask, VerifyTask.carried]
      · intro place away m found
        cases place with
        | stored key => exact (MirrorHubs.copyAt_withMirror_of_ne away).symm.trans found
        | carried q =>
          by_cases same : q = p
          · subst same
            simp [MirrorHubs.copyAt, MirrorHubs.setTask, VerifyTask.carried] at found
          · simpa [MirrorHubs.copyAt, MirrorHubs.setTask, AList.lookup_insert_ne same] using found
      · intro k m found
        by_cases same : k = ⟨.messageHubSql, hub, mirror.id⟩
        · subst same
          cases (AList.lookup_insert s.mirrors).symm.trans found
          rfl
        · exact inv.ownId k m ((AList.lookup_insert_ne same).symm.trans found)
    · exact inv.setTask p rfl
  next => exact inv

theorem OneWindow.step (crypto : Crypto) (c : Config MirrorHubs Verified) (input : MirrorInput)
    (inv : OneWindow c) (kept : WindowKept c input) : OneWindow ((mirrorHubs crypto).advance c input) := by
  obtain ⟨s, log⟩ := c
  unfold Machine.advance mirrorHubs
  cases input with
  | upsert hubClass hub identityKey update io =>
    simp only [MirrorHubs.step, List.append_nil]
    exact inv.upserted kept
  | revoke hubClass hub id io =>
    simp only [MirrorHubs.step, List.append_nil]
    exact inv.keeps (revokeSessionMirror_keeps _ _ _ _ _)
  | sweep hubClass hub nowMs listed undeleted =>
    simp only [MirrorHubs.step, List.append_nil]
    exact inv.keeps (sweepExpiredSessionMirrors_keeps _ _ _ _ _ _)
  | verify hub body nowMs io => exact inv.verified crypto .messageHub hub body nowMs io
  | sqlVerify p hub body io =>
    simp only [MirrorHubs.step, List.append_nil, MirrorHubs.sqlVerifyStep]
    split
    · exact inv
    split
    · exact inv.setTask p rfl
    · exact inv.setTask p rfl
  | take p io =>
    simp only [MirrorHubs.step, List.append_nil]
    exact inv.taken p kept
  | strayTake hubClass hub id identity io =>
    simp only [MirrorHubs.step, List.append_nil]
    exact inv.keeps (handleSessionTake_keeps _ _ _ _ _ _)
  | giveUp p =>
    simp only [MirrorHubs.step, List.append_nil, MirrorHubs.giveUpStep]
    split
    · exact inv.setTask p rfl
    · exact inv
  | keep p io =>
    simp only [MirrorHubs.step, List.append_nil]
    exact inv.kept p io
  | finish p nowMs io =>
    simp only [MirrorHubs.step, MirrorHubs.finishStep]
    split
    · exact (inv.dropTask p).verified crypto .messageHubSql _ _ nowMs io
    · rw [List.append_nil]
      exact inv
  | evict p =>
    simp only [MirrorHubs.step, List.append_nil]
    exact inv.dropTask p

/-- While no mirror is created over a lane's earlier window, and a mirror handed over leaves its old
hub, every counter is answered ok at most once across both classes of hub. -/
theorem acceptedOnce_of_windowKept (crypto : Crypto) (inputs : List MirrorInput)
    (kept : (mirrorHubs crypto).Guarded WindowKept ⟨MirrorHubs.start, []⟩ inputs) :
    AcceptedOnce ((mirrorHubs crypto).run ⟨MirrorHubs.start, []⟩ inputs).log :=
  ((mirrorHubs crypto).run_invariant (OneWindow.step crypto) oneWindow_start kept).once

def sampleIdentity : String := "02f1a3c5e7092b4d6f8091a2b3c4d5e6f708192a3b4c5d6e7f8091a2b3c4d5e6f7"

def sampleUpdate : MirrorUpdate :=
  { id := "a56145270ce6b3bebd1dd012b73948677dd618d496488bc608a3cb43ce3547dd",
    key := "86be9a55762d316a3026c2836d044f5fc76e34da10e1b45feee5f18be7edb177",
    expiresAtMs := 1000 + sessionIdleMs,
    mintedAtMs := 1000 }

/-- A request of the HTTP lane, with the MAC its client computes. -/
def sampleRequest (h : Nat) : SessionVerifyBody :=
  { id := sampleUpdate.id,
    identity := sampleIdentity,
    h := h,
    method := "POST",
    path := "/listMessages",
    bodySha256 := "cc702ae2d2611f9f6ea43bb1a220df06c4ed55678122cc17b9f9dcd2af061acf",
    mac :=
      if h = 1 then "9a182fc044ff5167292c88ce31aca7c14e852c652b329ced3160d6400730301d"
      else "71776cef16b8c3d83e77efbfb9f65ed0fff5bae857c843d53102d5cd924b7e47" }

/-- HMAC-SHA256 on the messages of the two sample requests, by value. -/
def sampleCrypto : Crypto :=
  { sha256 := fun _ => List.Vector.replicate 32 0,
    sha256Hmac := fun key message =>
      let asked (h : Nat) : Option Bytes :=
        (hex32 (sampleRequest h).bodySha256).map (fun digest =>
          toLeBytes h ++ utf8 "POST /listMessages" ++ [0] ++ digest.toList)
      let answer :=
        if some key ≠ hex32 sampleUpdate.key then none
        else if some message = asked 1 then hex32 (sampleRequest 1).mac
        else if some message = asked 2 then hex32 (sampleRequest 2).mac
        else none
      answer.getD (List.Vector.replicate 32 0) }

def allAnswered : StorageAnswers := ⟨true, true, true⟩

/-- A lane used over both classes of hub, with a replay at the end. -/
def handedOverLane : List MirrorInput :=
  [.upsert .messageHub sampleIdentity sampleIdentity sampleUpdate allAnswered,
    .verify sampleIdentity (sampleRequest 1) 2000 allAnswered,
    .sqlVerify 0 sampleIdentity (sampleRequest 2) allAnswered,
    .take 0 allAnswered,
    .keep 0 allAnswered,
    .finish 0 3000 allAnswered,
    .sqlVerify 0 sampleIdentity (sampleRequest 1) allAnswered,
    .finish 0 4000 allAnswered]

theorem acceptedOnce_handedOverLane :
    ((mirrorHubs sampleCrypto).run ⟨MirrorHubs.start, []⟩ handedOverLane).log.length = 2 ∧
      AcceptedOnce ((mirrorHubs sampleCrypto).run ⟨MirrorHubs.start, []⟩ handedOverLane).log :=
  ⟨by decide +kernel, acceptedOnce_of_windowKept sampleCrypto handedOverLane (by decide +kernel)⟩

/-- The mirror idles past its window while deliveries keep the socket's lane alive, a verify deletes
it, and the next frame of the socket creates it anew. -/
def recreatedMirror : List MirrorInput :=
  [.upsert .messageHub sampleIdentity sampleIdentity sampleUpdate allAnswered,
    .verify sampleIdentity (sampleRequest 1) 2000 allAnswered,
    .verify sampleIdentity (sampleRequest 2) (2001 + sessionIdleMs) allAnswered,
    .upsert .messageHub sampleIdentity sampleIdentity
      { sampleUpdate with expiresAtMs := 2002 + sessionIdleMs + sessionIdleMs } allAnswered,
    .verify sampleIdentity (sampleRequest 1) (2003 + sessionIdleMs) allAnswered]

theorem recreatedMirror_accepts_twice :
    ClockMonotone recreatedMirror ∧
      ¬AcceptedOnce ((mirrorHubs sampleCrypto).run ⟨MirrorHubs.start, []⟩ recreatedMirror).log := by
  decide +kernel

end MessageRelay.Lane
