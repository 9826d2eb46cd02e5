import MessageRelay.Library.Machine
import MessageRelay.Lane.MirrorStore

/-! The hubs of both classes as one machine over the mirrors of the session lanes. A verify on the
newer class first takes the mirror from the older one: the ask, the answer, the put and the verify are
steps of their own, and anything may happen between them. -/

namespace MessageRelay.Lane
open MessageRelay.Library

/-- Where a verify on a `MessageHubSql` stands. -/
inductive VerifyTask where
  /-- The identity's `MessageHub` is asked for the mirror. -/
  | asking (hub : String) (body : SessionVerifyBody)
  /-- It handed the mirror over, not yet kept here. -/
  | handed (hub : String) (body : SessionVerifyBody) (mirror : HubMirror)
  | verifying (hub : String) (body : SessionVerifyBody)
  deriving DecidableEq, Repr

def VerifyTask.carried : VerifyTask → Option HubMirror
  | .handed _ _ mirror => some mirror
  | _ => none

structure MirrorHubs where
  mirrors : MirrorTable
  tasks : AList (fun _ : Nat => VerifyTask)

/-- A verify answered ok: which hub, which session, which counter. -/
structure Verified where
  hubClass : HubClass
  hub : String
  id : String
  h : Nat
  deriving DecidableEq, Repr

inductive MirrorInput where
  /-- A socket's forward, or a retry of one, arrives at a hub. -/
  | upsert (hubClass : HubClass) (hub identityKey : String) (update : MirrorUpdate) (io : StorageAnswers)
  | revoke (hubClass : HubClass) (hub id : String) (io : StorageAnswers)
  | sweep (hubClass : HubClass) (hub : String) (nowMs : Nat) (listed : Bool) (undeleted : List String)
  | verify (hub : String) (body : SessionVerifyBody) (nowMs : Nat) (io : StorageAnswers)
  | sqlVerify (task : Nat) (hub : String) (body : SessionVerifyBody) (io : StorageAnswers)
  | take (task : Nat) (io : StorageAnswers)
  /-- A take whose caller no longer waits for the answer. -/
  | strayTake (hubClass : HubClass) (hub id identity : String) (io : StorageAnswers)
  | giveUp (task : Nat)
  | keep (task : Nat) (io : StorageAnswers)
  | finish (task : Nat) (nowMs : Nat) (io : StorageAnswers)
  | evict (task : Nat)
  deriving DecidableEq, Repr

def MirrorInput.clock : MirrorInput → Option Nat
  | .sweep _ _ nowMs _ _ => some nowMs
  | .verify _ _ nowMs _ => some nowMs
  | .finish _ nowMs _ => some nowMs
  | _ => none

/-- The clock never goes back along the run. -/
def ClockMonotone (inputs : List MirrorInput) : Prop :=
  (inputs.filterMap MirrorInput.clock).Pairwise (· ≤ ·)

instance (inputs : List MirrorInput) : Decidable (ClockMonotone inputs) :=
  inferInstanceAs (Decidable (List.Pairwise _ _))

namespace MirrorHubs

def start : MirrorHubs :=
  { mirrors := ∅, tasks := ∅ }

def setTask (s : MirrorHubs) (p : Nat) (task : VerifyTask) : MirrorHubs :=
  { s with tasks := s.tasks.insert p task }

def dropTask (s : MirrorHubs) (p : Nat) : MirrorHubs :=
  { s with tasks := s.tasks.erase p }

/-- A verify at one hub, and the event of its answer. -/
def verifyAt (crypto : Crypto) (s : MirrorHubs) (hubClass : HubClass) (hub : String)
    (body : SessionVerifyBody) (nowMs : Nat) (io : StorageAnswers) : MirrorHubs × List Verified :=
  match verifySession crypto s.mirrors hubClass hub body nowMs io with
  | (.ok _ _, mirrors) => ({ s with mirrors }, [⟨hubClass, hub, body.id, body.h⟩])
  | (.refused _, mirrors) => ({ s with mirrors }, [])

def sqlVerifyStep (s : MirrorHubs) (p : Nat) (hub : String) (body : SessionVerifyBody)
    (io : StorageAnswers) : MirrorHubs :=
  match s.tasks.lookup p with
  | some _ => s
  | none =>
    if body.id ≠ "" ∧ hasSessionMirror s.mirrors .messageHubSql hub body.id io = false then
      s.setTask p (.asking hub body)
    else s.setTask p (.verifying hub body)

/-- The take is asked of the `MessageHub` named like the verify's identity. -/
def takeStep (s : MirrorHubs) (p : Nat) (io : StorageAnswers) : MirrorHubs :=
  match s.tasks.lookup p with
  | some (.asking hub body) =>
    match handleSessionTake s.mirrors .messageHub body.identity body.id body.identity io with
    | (some mirror, mirrors) => { s with mirrors }.setTask p (.handed hub body mirror)
    | (none, mirrors) => { s with mirrors }.setTask p (.verifying hub body)
  | _ => s

def giveUpStep (s : MirrorHubs) (p : Nat) : MirrorHubs :=
  match s.tasks.lookup p with
  | some (.asking hub body) => s.setTask p (.verifying hub body)
  | _ => s

def keepStep (s : MirrorHubs) (p : Nat) (io : StorageAnswers) : MirrorHubs :=
  match s.tasks.lookup p with
  | some (.handed hub body mirror) =>
    { s with mirrors := keepSessionMirror s.mirrors .messageHubSql hub mirror io }.setTask p
      (.verifying hub body)
  | _ => s

def finishStep (crypto : Crypto) (s : MirrorHubs) (p : Nat) (nowMs : Nat) (io : StorageAnswers) :
    MirrorHubs × List Verified :=
  match s.tasks.lookup p with
  | some (.verifying hub body) => (s.dropTask p).verifyAt crypto .messageHubSql hub body nowMs io
  | _ => (s, [])

def step (crypto : Crypto) (s : MirrorHubs) : MirrorInput → MirrorHubs × List Verified
  | .upsert hubClass hub identityKey update io =>
    ({ s with mirrors := upsertSessionMirror s.mirrors hubClass hub identityKey update io }, [])
  | .revoke hubClass hub id io =>
    ({ s with mirrors := revokeSessionMirror s.mirrors hubClass hub id io }, [])
  | .sweep hubClass hub nowMs listed undeleted =>
    ({ s with mirrors := sweepExpiredSessionMirrors s.mirrors hubClass hub nowMs listed undeleted }, [])
  | .verify hub body nowMs io => s.verifyAt crypto .messageHub hub body nowMs io
  | .sqlVerify p hub body io => (s.sqlVerifyStep p hub body io, [])
  | .take p io => (s.takeStep p io, [])
  | .strayTake hubClass hub id identity io =>
    ({ s with mirrors := (handleSessionTake s.mirrors hubClass hub id identity io).2 }, [])
  | .giveUp p => (s.giveUpStep p, [])
  | .keep p io => (s.keepStep p io, [])
  | .finish p nowMs io => s.finishStep crypto p nowMs io
  | .evict p => (s.dropTask p, [])

end MirrorHubs

def mirrorHubs (crypto : Crypto) : Machine MirrorHubs MirrorInput Verified :=
  { step := MirrorHubs.step crypto }

/-- Where a copy of a mirror can be: in a hub's storage, or on its way between the two classes. -/
inductive Place where
  | stored (key : MirrorKey)
  | carried (task : Nat)
  deriving DecidableEq, Repr

namespace MirrorHubs

def copyAt (s : MirrorHubs) : Place → Option HubMirror
  | .stored key => s.mirrors.lookup key
  | .carried p => (s.tasks.lookup p).bind VerifyTask.carried

/-- The mirror stored at a place, in the place of any other. -/
def withMirror (s : MirrorHubs) (key : MirrorKey) (m : HubMirror) : MirrorHubs :=
  { s with mirrors := s.mirrors.insert key m }

theorem copyAt_withMirror_self (s : MirrorHubs) (key : MirrorKey) (m : HubMirror) :
    (s.withMirror key m).copyAt (.stored key) = some m :=
  AList.lookup_insert s.mirrors

theorem copyAt_withMirror_of_ne {s : MirrorHubs} {key : MirrorKey} {m : HubMirror} {p : Place}
    (other : p ≠ .stored key) : (s.withMirror key m).copyAt p = s.copyAt p := by
  cases p with
  | stored key' =>
    apply AList.lookup_insert_ne
    intro same
    exact other (congrArg Place.stored same)
  | carried p => rfl

def copies (s : MirrorHubs) : List HubMirror :=
  s.mirrors.entries.map (fun e => e.2) ++ s.tasks.entries.filterMap (fun e => e.2.carried)

theorem mem_copies {s : MirrorHubs} {p : Place} {m : HubMirror} (held : s.copyAt p = some m) :
    m ∈ s.copies := by
  unfold copies
  cases p with
  | stored key =>
    apply List.mem_append_left
    exact List.mem_map.mpr ⟨⟨key, m⟩, AList.mem_lookup_iff.mp held, rfl⟩
  | carried p =>
    apply List.mem_append_right
    obtain ⟨task, found, carried⟩ := Option.bind_eq_some_iff.mp held
    exact List.mem_filterMap.mpr ⟨⟨p, task⟩, AList.mem_lookup_iff.mp found, carried⟩

end MirrorHubs

end MessageRelay.Lane
