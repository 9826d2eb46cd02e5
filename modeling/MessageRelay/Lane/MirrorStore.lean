import MessageRelay.Lane.Mirror

/-! A hub's operations on the mirrors in its storage. There are two classes of hub, and each identity
has its own hub of each class. Every handler says whether the storage answered its reads, its writes
and its deletes. -/

namespace MessageRelay.Lane
open MessageRelay.Library

inductive HubClass where
  | messageHub
  | messageHubSql
  deriving DecidableEq, Repr

/-- Where a mirror is stored: the hub and the session id. -/
structure MirrorKey where
  hubClass : HubClass
  hub : String
  id : String
  deriving DecidableEq, Repr

abbrev MirrorTable := AList (fun _ : MirrorKey => HubMirror)

/-- Which of a handler's storage calls go through. -/
structure StorageAnswers where
  readable : Bool
  stored : Bool
  deleted : Bool
  deriving DecidableEq, Repr

/-- A request for the HTTP lane, as the Worker hands it to the hub. -/
structure SessionVerifyBody where
  id : String
  identity : String
  h : Nat
  method : String
  path : String
  bodySha256 : String
  mac : String
  deriving DecidableEq, Repr

inductive VerifyAnswer where
  | ok (identity key : String)
  | refused (reason : String)
  deriving DecidableEq, Repr

namespace MirrorTable

/-- A read that fails is a read of nothing. -/
def get (t : MirrorTable) (k : MirrorKey) (io : StorageAnswers) : Option HubMirror :=
  if io.readable then t.lookup k else none

def put (t : MirrorTable) (k : MirrorKey) (m : HubMirror) (io : StorageAnswers) : MirrorTable :=
  if io.stored then t.insert k m else t

def delete (t : MirrorTable) (k : MirrorKey) (io : StorageAnswers) : MirrorTable :=
  if io.deleted then t.erase k else t

end MirrorTable

def upsertSessionMirror (t : MirrorTable) (hubClass : HubClass) (hub identityKey : String)
    (update : MirrorUpdate) (io : StorageAnswers) : MirrorTable :=
  if update.id = "" ∨ update.key = "" ∨ identityKey = "" then t
  else
    let identityKey := toAsciiLowercase identityKey
    let key : MirrorKey := ⟨hubClass, hub, update.id⟩
    match t.get key io with
    | none => t.put key (HubMirror.new identityKey update) io
    | some m =>
      if m.identity ≠ identityKey then t
      else if m.key ≠ update.key then t
      else if !m.refreshDue update.expiresAtMs then t
      else t.put key { m with expiresAtMs := update.expiresAtMs } io

def revokeSessionMirror (t : MirrorTable) (hubClass : HubClass) (hub id : String) (io : StorageAnswers) :
    MirrorTable :=
  if id = "" then t else t.delete ⟨hubClass, hub, id⟩ io

/-- The mirrors of one hub that may no longer be used. -/
def expiredMirrors (t : MirrorTable) (hubClass : HubClass) (hub : String) (nowMs : Nat) : List MirrorKey :=
  t.entries.filterMap (fun e =>
    if e.1.hubClass = hubClass ∧ e.1.hub = hub ∧ !e.2.isLive nowMs then some e.1 else none)

/-- Each expired mirror is deleted on its own, and any of the deletes may fail. -/
def sweepExpiredSessionMirrors (t : MirrorTable) (hubClass : HubClass) (hub : String) (nowMs : Nat)
    (listed : Bool) (undeleted : List String) : MirrorTable :=
  if listed then
    (expiredMirrors t hubClass hub nowMs).foldl
      (fun t k => if k.id ∈ undeleted then t else t.erase k) t
  else t

def hasSessionMirror (t : MirrorTable) (hubClass : HubClass) (hub id : String) (io : StorageAnswers) : Bool :=
  id ≠ "" && (t.get ⟨hubClass, hub, id⟩ io).isSome

def keepSessionMirror (t : MirrorTable) (hubClass : HubClass) (hub : String) (m : HubMirror)
    (io : StorageAnswers) : MirrorTable :=
  t.put ⟨hubClass, hub, m.id⟩ m io

def handleSessionTake (t : MirrorTable) (hubClass : HubClass) (hub id identity : String)
    (io : StorageAnswers) : Option HubMirror × MirrorTable :=
  let key : MirrorKey := ⟨hubClass, hub, id⟩
  match if id = "" then none else t.get key io with
  | some m => if m.identity = toAsciiLowercase identity then (some m, t.delete key io) else (none, t)
  | none => (none, t)

def verifySession (crypto : Crypto) (t : MirrorTable) (hubClass : HubClass) (hub : String)
    (body : SessionVerifyBody) (nowMs : Nat) (io : StorageAnswers) : VerifyAnswer × MirrorTable :=
  let key : MirrorKey := ⟨hubClass, hub, body.id⟩
  match if body.id = "" then none else t.get key io with
  | none => (.refused Refusal.unknownSession.asStr, t)
  | some mirror =>
    if mirror.identity ≠ toAsciiLowercase body.identity then
      (.refused Refusal.unknownSession.asStr, t)
    else
      match hex32 body.bodySha256 with
      | none => (.refused Refusal.malformed.asStr, t)
      | some digest =>
        match mirror.verifyHttp crypto body.h body.method body.path digest body.mac nowMs with
        | .ok mirror =>
          -- the counter moved: it is persisted before the answer
          if io.stored then (.ok mirror.identity mirror.key, t.insert key mirror)
          else (.refused "storage", t)
        | .error .expired => (.refused Refusal.expired.asStr, t.delete key io)
        | .error reason => (.refused reason.asStr, t)

/-- The upsert finds no mirror and stores a new one. -/
def createsMirror (t : MirrorTable) (hubClass : HubClass) (hub identityKey : String)
    (update : MirrorUpdate) (io : StorageAnswers) : Bool :=
  update.id ≠ "" && update.key ≠ "" && identityKey ≠ "" && io.stored &&
    (t.get ⟨hubClass, hub, update.id⟩ io).isNone

/-- No mirror appears: each one left stood at the same place, with the same window. -/
def Keeps (t t' : MirrorTable) : Prop :=
  ∀ k m', t'.lookup k = some m' → ∃ m, t.lookup k = some m ∧ m'.id = m.id ∧ m'.window = m.window

theorem Keeps.refl (t : MirrorTable) : Keeps t t :=
  fun _ m held => ⟨m, held, rfl, rfl⟩

theorem Keeps.trans {t t' t'' : MirrorTable} (first : Keeps t t') (second : Keeps t' t'') :
    Keeps t t'' := by
  intro k m'' held
  obtain ⟨m', held', id', window'⟩ := second k m'' held
  obtain ⟨m, held, id, window⟩ := first k m' held'
  exact ⟨m, held, id'.trans id, window'.trans window⟩

theorem Keeps.erase (t : MirrorTable) (k : MirrorKey) : Keeps t (t.erase k) := by
  intro k' m held
  by_cases same : k' = k
  · rw [same, AList.lookup_erase] at held
    cases held
  · rw [AList.lookup_erase_ne same] at held
    exact ⟨m, held, rfl, rfl⟩

theorem Keeps.delete (t : MirrorTable) (k : MirrorKey) (io : StorageAnswers) : Keeps t (t.delete k io) := by
  unfold MirrorTable.delete
  split
  · exact Keeps.erase t k
  · exact Keeps.refl t

theorem Keeps.put {t : MirrorTable} {k : MirrorKey} {m m' : HubMirror} (held : t.lookup k = some m)
    (id : m'.id = m.id) (window : m'.window = m.window) (io : StorageAnswers) : Keeps t (t.put k m' io) := by
  unfold MirrorTable.put
  split
  next =>
    intro k' found lookup
    by_cases same : k' = k
    · subst same
      rw [AList.lookup_insert] at lookup
      cases lookup
      exact ⟨m, held, id, window⟩
    · rw [AList.lookup_insert_ne same] at lookup
      exact ⟨found, lookup, rfl, rfl⟩
  next => exact Keeps.refl t

theorem MirrorTable.lookup_of_get {t : MirrorTable} {k : MirrorKey} {io : StorageAnswers} {m : HubMirror}
    (read : t.get k io = some m) : t.lookup k = some m := by
  unfold MirrorTable.get at read
  split at read
  · exact read
  · cases read

theorem upsertSessionMirror_cases (t : MirrorTable) (hubClass : HubClass) (hub identityKey : String)
    (update : MirrorUpdate) (io : StorageAnswers) :
    (createsMirror t hubClass hub identityKey update io = true ∧
      upsertSessionMirror t hubClass hub identityKey update io =
        t.insert ⟨hubClass, hub, update.id⟩ (HubMirror.new (toAsciiLowercase identityKey) update)) ∨
    Keeps t (upsertSessionMirror t hubClass hub identityKey update io) := by
  unfold upsertSessionMirror createsMirror
  split
  · exact .inr (Keeps.refl t)
  next given =>
    simp only [not_or] at given
    dsimp only
    split
    next missing =>
      by_cases stored : io.stored = true
      · left
        simp [given.1, given.2.1, given.2.2, stored, missing, MirrorTable.put]
      · right
        simp only [MirrorTable.put, if_neg stored]
        exact Keeps.refl t
    next m found =>
      right
      split
      · exact Keeps.refl t
      split
      · exact Keeps.refl t
      split
      · exact Keeps.refl t
      · apply Keeps.put (MirrorTable.lookup_of_get found)
        · rfl
        · rfl

theorem revokeSessionMirror_keeps (t : MirrorTable) (hubClass : HubClass) (hub id : String)
    (io : StorageAnswers) : Keeps t (revokeSessionMirror t hubClass hub id io) := by
  unfold revokeSessionMirror
  split
  · exact Keeps.refl t
  · exact Keeps.delete t _ io

theorem foldl_erase_keeps (undeleted : List String) (keys : List MirrorKey) (t : MirrorTable) :
    Keeps t (keys.foldl (fun t k => if k.id ∈ undeleted then t else t.erase k) t) := by
  induction keys generalizing t with
  | nil => exact Keeps.refl t
  | cons k rest ih =>
    rw [List.foldl_cons]
    split
    · exact ih t
    · exact (Keeps.erase t k).trans (ih _)

theorem sweepExpiredSessionMirrors_keeps (t : MirrorTable) (hubClass : HubClass) (hub : String)
    (nowMs : Nat) (listed : Bool) (undeleted : List String) :
    Keeps t (sweepExpiredSessionMirrors t hubClass hub nowMs listed undeleted) := by
  unfold sweepExpiredSessionMirrors
  split
  · exact foldl_erase_keeps undeleted _ t
  · exact Keeps.refl t

/-- A mirror handed over is the one held here, and the delete is the only change. -/
theorem handleSessionTake_some {t t' : MirrorTable} {hubClass : HubClass} {hub id identity : String}
    {io : StorageAnswers} {m : HubMirror} (taken : handleSessionTake t hubClass hub id identity io = (some m, t')) :
    t.lookup ⟨hubClass, hub, id⟩ = some m ∧ t' = t.delete ⟨hubClass, hub, id⟩ io := by
  unfold handleSessionTake at taken
  dsimp only at taken
  split at taken
  next found read =>
    split at taken
    next =>
      cases taken
      split at read
      · cases read
      · exact ⟨MirrorTable.lookup_of_get read, rfl⟩
    next => cases taken
  next => cases taken

theorem handleSessionTake_keeps (t : MirrorTable) (hubClass : HubClass) (hub id identity : String)
    (io : StorageAnswers) : Keeps t (handleSessionTake t hubClass hub id identity io).2 := by
  unfold handleSessionTake
  dsimp only
  split
  next =>
    split
    · exact Keeps.delete t _ io
    · exact Keeps.refl t
  next => exact Keeps.refl t

/-- What a verify can do: accept a fresh counter of the mirror held here, or refuse. -/
theorem verifySession_cases (crypto : Crypto) (t : MirrorTable) (hubClass : HubClass) (hub : String)
    (body : SessionVerifyBody) (nowMs : Nat) (io : StorageAnswers) :
    (∃ m identity key, t.lookup ⟨hubClass, hub, body.id⟩ = some m ∧ m.window.fresh body.h = true ∧
      verifySession crypto t hubClass hub body nowMs io = (.ok identity key,
        t.insert ⟨hubClass, hub, body.id⟩
          { m.acceptCounter body.h with expiresAtMs := nowMs + sessionIdleMs })) ∨
    (∃ reason, (verifySession crypto t hubClass hub body nowMs io).1 = .refused reason ∧
      Keeps t (verifySession crypto t hubClass hub body nowMs io).2) := by
  unfold verifySession
  dsimp only
  split
  · exact .inr ⟨_, rfl, Keeps.refl t⟩
  next mirror read =>
    have held : t.lookup ⟨hubClass, hub, body.id⟩ = some mirror := by
      split at read
      · cases read
      · exact MirrorTable.lookup_of_get read
    split
    · exact .inr ⟨_, rfl, Keeps.refl t⟩
    split
    · exact .inr ⟨_, rfl, Keeps.refl t⟩
    split
    next accepted verified =>
      obtain ⟨unseen, rfl⟩ := HubMirror.verifyHttp_ok verified
      split
      · exact .inl ⟨mirror, _, _, held, unseen, rfl⟩
      · exact .inr ⟨_, rfl, Keeps.refl t⟩
    next => exact .inr ⟨_, rfl, Keeps.delete t _ io⟩
    next => exact .inr ⟨_, rfl, Keeps.refl t⟩

end MessageRelay.Lane
