import MessageRelay.Relay.Relisting
import MessageRelay.Relay.HubInvariant

/-! One hub and the archive: an id once handed over is held in the mailbox until D1 holds it
acknowledged, or for somebody else. A confirmation the hub has yet to take says no more than that. -/

namespace MessageRelay.Relay
open MessageRelay.Library MessageRelay.Mailbox MessageRelay.Archive MessageRelay.Database

/-- D1 lists no row under the id to the recipient. -/
def Unlisted (db : Database.Store) (recipient id : String) : Prop :=
  ∀ r, db.row? id = some r → r.recipient = recipient → r.acknowledgedAt ≠ none

/-- A row at the version of an acknowledgment is marked so. -/
def Marked (db : Database.Store) : Prop :=
  ∀ id r, db.row? id = some r → 2 ≤ r.archiveVersion → r.acknowledgedAt ≠ none

/-- A message of this hub. Its second version is the acknowledgment. -/
def FromHub (recipient : String) (m : ArchiveMessage) : Prop :=
  m.recipient = recipient ∧ (2 ≤ m.version → m.change = .acknowledge)

/-- What a confirmation says of D1. -/
def DoneHolds (db : Database.Store) (recipient : String) (d : Done) : Prop :=
  if d.collision then Foreign db recipient d.messageId
  else 2 ≤ d.version → Sealed db recipient d.messageId

/-- What a verdict promises of D1 once the applied messages are written. -/
def Promised (db : Database.Store) (recipient : String) (written : List ArchiveMessage) (m : ArchiveMessage)
    (v : Verdict) : Prop :=
  if v = .collision then Foreign db recipient m.messageId
  else ¬ Foreign db recipient m.messageId ∧ (2 ≤ m.version → Sealed db recipient m.messageId ∨
    ∃ lead ∈ written, lead.messageId = m.messageId ∧ 2 ≤ lead.version)

def SettlingPass (recipient : String) (w : Hubs) : Pass → Prop
  | .idle => True
  | .reading batch => ∀ m ∈ batch, FromHub recipient m ∧ Enqueued w recipient m.messageId
  | .planned batch verdicts =>
    (∀ m ∈ batch, FromHub recipient m ∧ Enqueued w recipient m.messageId) ∧
      ∀ entry ∈ batch.zip verdicts, Promised w.db recipient (applied batch verdicts) entry.1 entry.2
  | .telling dones => ∀ entry ∈ dones, ∀ d ∈ entry.2, entry.1 = recipient ∧ DoneHolds w.db recipient d

/-- A row counts one version while it is live and another once it is acknowledged. -/
def Counted (r : Row) : Prop := (r.state = .live → r.version = 1) ∧ (r.state = .acknowledged → 2 ≤ r.version)

structure Settling (recipient : String) (w : Hubs) : Prop where
  held : ∀ id r, (w.mailboxes recipient).find? id = some r → Enqueued w recipient id ∧ Counted r
  queue : ∀ m ∈ w.queue, FromHub recipient m
  passes : ∀ p, SettlingPass recipient w (w.passes p)
  settled : ∀ id, Enqueued w recipient id → (w.mailboxes recipient).find? id ≠ none ∨
    Sealed w.db recipient id ∨ Foreign w.db recipient id
  marked : Marked w.db

/-- What a step that stores nothing under the id may do to it. -/
structure Moves (recipient id : String) (w w' : Hubs) : Prop where
  absent : (w.mailboxes recipient).find? id = none → (w'.mailboxes recipient).find? id = none
  dead : ∀ r', (w'.mailboxes recipient).find? id = some r' → r'.state = .live →
    ∃ r, (w.mailboxes recipient).find? id = some r ∧ r.state = .live
  gone : ∀ r, (w.mailboxes recipient).find? id = some r → (w'.mailboxes recipient).find? id = none →
    Sealed w'.db recipient id ∨ Foreign w'.db recipient id
  last : Sealed w.db recipient id → Sealed w'.db recipient id
  foreign : Foreign w'.db recipient id ↔ Foreign w.db recipient id
  handed : Enqueued w' recipient id ↔ Enqueued w recipient id
  unlisted : ¬ Enqueued w recipient id → Unlisted w.db recipient id → Unlisted w'.db recipient id

/-- The hubs change in their passes alone. -/
theorem Moves.refl (recipient id : String) (w : Hubs) (passes : Nat → Pass) :
    Moves recipient id w { w with passes := passes } := by
  constructor
  · exact fun absent => absent
  · exact fun r found live => ⟨r, found, live⟩
  · intro r found lost
    have contrary : some r = none := found.symm.trans lost
    cases contrary
  · exact fun last => last
  · exact Iff.rfl
  · exact Iff.rfl
  · exact fun _ unlisted => unlisted

theorem Moves.trans {recipient id : String} {w middle w' : Hubs} (first : Moves recipient id w middle)
    (second : Moves recipient id middle w') : Moves recipient id w w' := by
  constructor
  · exact fun absent => second.absent (first.absent absent)
  · intro r' found live
    obtain ⟨r, found, live⟩ := second.dead r' found live
    exact first.dead r found live
  · intro r found lost
    cases between : (middle.mailboxes recipient).find? id with
    | none =>
      rcases first.gone r found between with last | foreign
      · exact .inl (second.last last)
      · exact .inr (second.foreign.mpr foreign)
    | some r' => exact second.gone r' between lost
  · exact fun last => second.last (first.last last)
  · exact second.foreign.trans first.foreign
  · exact second.handed.trans first.handed
  · exact fun unhanded unlisted =>
      second.unlisted (fun handed => unhanded (first.handed.mp handed)) (first.unlisted unhanded unlisted)

section Passes
variable {recipient : String} {db db' : Database.Store}
  (last : ∀ id, Sealed db recipient id → Sealed db' recipient id)
  (foreign : ∀ id, Foreign db' recipient id ↔ Foreign db recipient id)
include last foreign

theorem DoneHolds.move {d : Done} (holds : DoneHolds db recipient d) : DoneHolds db' recipient d := by
  unfold DoneHolds at holds ⊢
  split
  · rename_i collision
    rw [if_pos collision] at holds
    exact (foreign d.messageId).mpr holds
  · rename_i own
    rw [if_neg own] at holds
    exact fun second => last d.messageId (holds second)

theorem Promised.move {written : List ArchiveMessage} {m : ArchiveMessage} {v : Verdict}
    (promised : Promised db recipient written m v) : Promised db' recipient written m v := by
  unfold Promised at promised ⊢
  split
  · rename_i collision
    rw [if_pos collision] at promised
    exact (foreign m.messageId).mpr promised
  · rename_i own
    rw [if_neg own] at promised
    refine ⟨fun taken => promised.1 ((foreign m.messageId).mp taken), fun second => ?_⟩
    exact (promised.2 second).imp_left (last m.messageId)

end Passes

/-- What a pass rests on stays while settled ids stay settled and nobody else takes one. -/
theorem SettlingPass.move {recipient : String} {w w' : Hubs} {pass : Pass} (ok : SettlingPass recipient w pass)
    (handed : ∀ id, Enqueued w recipient id → Enqueued w' recipient id)
    (last : ∀ id, Sealed w.db recipient id → Sealed w'.db recipient id)
    (foreign : ∀ id, Foreign w'.db recipient id ↔ Foreign w.db recipient id) : SettlingPass recipient w' pass := by
  have messages {batch : List ArchiveMessage} (ok : ∀ m ∈ batch, FromHub recipient m ∧ Enqueued w recipient m.messageId) :
      ∀ m ∈ batch, FromHub recipient m ∧ Enqueued w' recipient m.messageId :=
    fun m member => ⟨(ok m member).1, handed m.messageId (ok m member).2⟩
  cases pass with
  | idle => trivial
  | reading batch => exact messages ok
  | planned batch verdicts => exact ⟨messages ok.1, fun entry member => (ok.2 entry member).move last foreign⟩
  | telling dones =>
    intro entry member d inside
    obtain ⟨addressed, holds⟩ := ok entry member d inside
    exact ⟨addressed, holds.move last foreign⟩

/-- The invariant after a step that stores nothing. -/
theorem Settling.move {recipient : String} {w w' : Hubs} (settling : Settling recipient w)
    (moves : ∀ id, Moves recipient id w w')
    (held : ∀ id r', (w'.mailboxes recipient).find? id = some r' → Counted r')
    (queue : ∀ m ∈ w'.queue, FromHub recipient m) (passes : w'.passes = w.passes) (marked : Marked w'.db) :
    Settling recipient w' := by
  constructor
  · intro id r' found
    refine ⟨(moves id).handed.mpr ?_, held id r' found⟩
    cases before : (w.mailboxes recipient).find? id with
    | none =>
      rw [(moves id).absent before] at found
      cases found
    | some r => exact (settling.held id r before).1
  · exact queue
  · intro p
    rw [passes]
    exact (settling.passes p).move (fun id => (moves id).handed.mpr) (fun id => (moves id).last)
      (fun id => (moves id).foreign)
  · intro id handed
    rcases settling.settled id ((moves id).handed.mp handed) with there | last | foreign
    · cases after : (w'.mailboxes recipient).find? id with
      | none =>
        obtain ⟨r, found⟩ := Option.ne_none_iff_exists'.mp there
        exact .inr ((moves id).gone r found after)
      | some r' => exact .inl (by simp)
    · exact .inr (.inl ((moves id).last last))
    · exact .inr (.inr ((moves id).foreign.mpr foreign))
  · exact marked

theorem Settling.setPass {recipient : String} {w : Hubs} (settling : Settling recipient w) (p : Nat) {pass : Pass}
    (ok : SettlingPass recipient w pass) : Settling recipient (w.setPass p pass) := by
  refine ⟨settling.held, settling.queue, fun q => ?_, settling.settled, settling.marked⟩
  by_cases same : q = p
  · subst same
    simp only [Hubs.setPass, Function.update_self]
    exact ok.move (fun _ handed => handed) (fun _ last => last) (fun _ => Iff.rfl)
  · simp only [Hubs.setPass, Function.update_of_ne same]
    exact (settling.passes q).move (fun _ handed => handed) (fun _ last => last) (fun _ => Iff.rfl)

/-- An id in the mailbox was handed over, so one never handed over is not there. -/
theorem Settling.absent {recipient id : String} {w : Hubs} (settling : Settling recipient w)
    (unhanded : ¬ Enqueued w recipient id) : (w.mailboxes recipient).find? id = none := by
  cases found : (w.mailboxes recipient).find? id with
  | none => rfl
  | some r => exact absurd (settling.held id r found).1 unhanded

/-- The id is not listed and will not be: the mailbox marks it acknowledged, D1 does, D1 gave it to
another recipient, or it never left D1 and D1 lists it no more. -/
structure Quiet (recipient id : String) (w : Hubs) : Prop where
  dead : ∀ r, (w.mailboxes recipient).find? id = some r → r.state ≠ .live
  covered : (w.mailboxes recipient).find? id ≠ none ∨ Sealed w.db recipient id ∨ Foreign w.db recipient id ∨
    ¬ Enqueued w recipient id ∧ Unlisted w.db recipient id

theorem Quiet.move {recipient id : String} {w w' : Hubs} (quiet : Quiet recipient id w)
    (moves : Moves recipient id w w') : Quiet recipient id w' := by
  constructor
  · intro r' found live
    obtain ⟨r, before, alive⟩ := moves.dead r' found live
    exact quiet.dead r before alive
  · rcases quiet.covered with there | last | foreign | ⟨unhanded, unlisted⟩
    · cases after : (w'.mailboxes recipient).find? id with
      | none =>
        obtain ⟨r, found⟩ := Option.ne_none_iff_exists'.mp there
        rcases moves.gone r found after with last | foreign
        · exact .inr (.inl last)
        · exact .inr (.inr (.inl foreign))
      | some r' => exact .inl (by simp)
    · exact .inr (.inl (moves.last last))
    · exact .inr (.inr (.inl (moves.foreign.mpr foreign)))
    · exact .inr (.inr (.inr ⟨fun handed => unhanded (moves.handed.mp handed), moves.unlisted unhanded unlisted⟩))

/-- Once no live row is in the mailbox and D1 lists none, the id is quiet. -/
theorem Settling.quiet {recipient id : String} {w : Hubs} (settling : Settling recipient w)
    (dead : ∀ r, (w.mailboxes recipient).find? id = some r → r.state ≠ .live)
    (unlisted : Unlisted w.db recipient id) : Quiet recipient id w := by
  refine ⟨dead, ?_⟩
  by_cases handed : Enqueued w recipient id
  · rcases settling.settled id handed with there | last | foreign
    · exact .inl there
    · exact .inr (.inl last)
    · exact .inr (.inr (.inl foreign))
  · exact .inr (.inr (.inr ⟨handed, unlisted⟩))

/-- A quiet id that D1 lists was handed over. -/
theorem Quiet.handed {recipient id : String} {w : Hubs} (settling : Settling recipient w)
    (quiet : Quiet recipient id w) {r : MessageRow} (found : w.db.row? id = some r) (own : r.recipient = recipient)
    (live : r.acknowledgedAt = none) : Enqueued w recipient id := by
  rcases quiet.covered with there | ⟨r', found', -, -, acked⟩ | ⟨r', found', other⟩ | ⟨-, unlisted⟩
  · obtain ⟨held, inside⟩ := Option.ne_none_iff_exists'.mp there
    exact (settling.held id held inside).1
  · rw [found] at found'
    cases found'
    exact absurd live acked
  · rw [found] at found'
    cases found'
    exact absurd own other
  · exact absurd live (unlisted r found own)

end MessageRelay.Relay
