import MessageRelay.Library.Machine
import MessageRelay.Archive.Truthful

/-! The archive ends in the same row whatever the queue does with a row's messages: any order, any
repeats, any batches, and any number of consumers between whose reads and writes others fall. -/

namespace MessageRelay.Archive
open MessageRelay.Library MessageRelay.Mailbox MessageRelay.Database

/-- D1 and the plans of the consumers' passes that are to be written. -/
structure Passes where
  db : Database.Store
  planned : Nat → Option (List ArchiveMessage × List Verdict)

inductive PassInput where
  /-- A batch delivered to a pass, its held read made and the batch planned. -/
  | read (pass : Nat) (batch : List ArchiveMessage)
  /-- The applied messages written as one D1 batch. A write may be repeated. -/
  | write (pass : Nat) (nowMs : Nat)
  deriving DecidableEq, Repr

def Passes.start (db : Database.Store) : Passes := ⟨db, fun _ => none⟩

/-- One step of a pass. The messages of a written batch are delivered. -/
def passStep (w : Passes) : PassInput → Passes × List ArchiveMessage
  | .read p batch => ({ w with planned := Function.update w.planned p (some (batch, plan batch (heldBy w.db batch))) }, [])
  | .write p nowMs =>
    match w.planned p with
    | some (batch, verdicts) => ({ w with db := writeBatch nowMs w.db (applied batch verdicts) }, batch)
    | none => (w, [])

def passMachine : Machine Passes PassInput ArchiveMessage := ⟨passStep⟩

/-- A batch read and written at once is the pass run alone. -/
theorem passMachine_alone (c : Config Passes ArchiveMessage) (p : Nat) (batch : List ArchiveMessage) (nowMs : Nat) :
    (passMachine.run c [.read p batch, .write p nowMs]).state.db = (archiveBatch nowMs c.state.db batch).2 ∧
      (passMachine.run c [.read p batch, .write p nowMs]).log = c.log ++ batch := by
  simp [Machine.run, Machine.advance, passMachine, passStep, archiveBatch]

/-- A mailbox row as its messages carry it. -/
structure Letter where
  recipient : String
  messageId : String
  messageBox : String
  sender : String
  body : String
  createdAt : String
  deriving DecidableEq, Repr

namespace Letter

/-- The row's first version. Its body was inside or was read from its hub. -/
def inserted (l : Letter) (inHub : Bool) : ArchiveMessage :=
  { recipient := l.recipient, messageId := l.messageId, version := 1, change := .insert
    messageBox := l.messageBox, sender := l.sender, body := some l.body, createdAt := some l.createdAt
    bodyInHub := inHub }

/-- The row's second version, with its body or without. -/
def acknowledged (l : Letter) (carries inHub : Bool) : ArchiveMessage :=
  { recipient := l.recipient, messageId := l.messageId, version := 2, change := .acknowledge
    messageBox := l.messageBox, sender := l.sender, body := if carries then some l.body else none
    createdAt := some l.createdAt, bodyInHub := inHub }

/-- D1 holds the row from the archive. -/
def Archived (l : Letter) (db : Database.Store) : Prop :=
  ∃ r, db.row? l.messageId = some r ∧ 1 ≤ r.archiveVersion

/-- A message of the row. One without the body was sent after the first version was archived. -/
def Sent (l : Letter) (db : Database.Store) (m : ArchiveMessage) : Prop :=
  (∃ inHub, m = l.inserted inHub) ∨
    ∃ carries inHub, m = l.acknowledged carries inHub ∧ (carries = false → l.Archived db)

/-- What a delivery under the row's id is allowed to be. Other ids carry anything. -/
def Scheduled (l : Letter) (c : Config Passes ArchiveMessage) : PassInput → Prop
  | .read _ batch => ∀ m ∈ batch, m.messageId = l.messageId → l.Sent c.state.db m
  | .write .. => True

instance (l : Letter) (db : Database.Store) : Decidable (l.Archived db) :=
  decidable_of_iff ((db.row? l.messageId).any (fun r => 1 ≤ r.archiveVersion) = true) (by
    cases found : db.row? l.messageId <;> simp [Archived, found])

instance (l : Letter) (db : Database.Store) (m : ArchiveMessage) : Decidable (l.Sent db m) :=
  decidable_of_iff (m = l.inserted m.bodyInHub ∨
    m = l.acknowledged m.body.isSome m.bodyInHub ∧ (m.body.isSome = false → l.Archived db)) (by
    constructor
    · intro sent
      rcases sent with inserted | acknowledged
      · exact .inl ⟨_, inserted⟩
      · exact .inr ⟨_, _, acknowledged⟩
    · intro sent
      rcases sent with ⟨inHub, rfl⟩ | ⟨carries, inHub, rfl, archived⟩
      · exact .inl rfl
      · cases carries
        · exact .inr ⟨rfl, archived⟩
        · exact .inr ⟨rfl, archived⟩)

instance (l : Letter) (c : Config Passes ArchiveMessage) (input : PassInput) : Decidable (l.Scheduled c input) :=
  match input with
  | .read _ batch =>
    inferInstanceAs (Decidable (∀ m ∈ batch, m.messageId = l.messageId → l.Sent c.state.db m))
  | .write .. => .isTrue trivial

/-- D1's row under the id over what it held before, which stays where the messages have nothing to say. -/
structure Holds (l : Letter) (origin : Option MessageRow) (db : Database.Store) (r : MessageRow) : Prop where
  recipient : r.recipient = l.recipient
  sender : r.sender = origin.elim l.sender MessageRow.sender
  body : r.body = if l.body = "" then origin.elim "" MessageRow.body else l.body
  createdAt : r.createdAt = origin.elim l.createdAt MessageRow.createdAt
  beefKey : r.beefKey = origin.bind MessageRow.beefKey
  box : some r.messageBoxId =
    origin.elim (findMessageBox db l.recipient l.messageBox) (fun o => some o.messageBoxId)
  version : r.archiveVersion = 1 ∨ r.archiveVersion = 2 ∧ r.acknowledgedAt ≠ none

/-- D1 holds what it held before under the id, or the row of the letter. -/
def Tracked (l : Letter) (origin : Option MessageRow) (db : Database.Store) : Prop :=
  db.row? l.messageId = origin ∨ ∃ r, db.row? l.messageId = some r ∧ l.Holds origin db r

end Letter

/-- Versions never go back, marks are never cleared and no row changes its recipient. -/
def NeverBack (before later : Database.Store) : Prop :=
  ∀ id r, before.row? id = some r → ∃ r', later.row? id = some r' ∧ r'.recipient = r.recipient ∧
    r.archiveVersion ≤ r'.archiveVersion ∧ (r.acknowledgedAt ≠ none → r'.acknowledgedAt = r.acknowledgedAt)

theorem NeverBack.refl (db : Database.Store) : NeverBack db db :=
  fun _ r found => ⟨r, found, rfl, le_rfl, fun _ => rfl⟩

theorem NeverBack.trans {a b c : Database.Store} (first : NeverBack a b) (second : NeverBack b c) :
    NeverBack a c := by
  intro id r found
  obtain ⟨r', found', same, newer, marked⟩ := first id r found
  obtain ⟨r'', found'', same', newer', marked'⟩ := second id r' found'
  refine ⟨r'', found'', same'.trans same, newer.trans newer', fun mark => ?_⟩
  rw [marked' (marked mark ▸ mark), marked mark]

theorem writeMessage_neverBack (nowMs : Nat) (db : Database.Store) (m : ArchiveMessage) :
    NeverBack db (writeMessage nowMs db m) := by
  obtain ⟨boxId, rows⟩ := row?_writeMessage nowMs db m
  intro id r found
  by_cases same : m.messageId = id
  · have kept := writtenRow_kept nowMs boxId m r
    refine ⟨writtenRow nowMs boxId m (some r), by rw [rows, if_pos same, found], kept.1, kept.2, fun mark => ?_⟩
    obtain ⟨at', marked⟩ := Option.ne_none_iff_exists'.mp mark
    simp only [writtenRow]
    split
    · simp [mergeRow, marked]
    · rfl
  · exact ⟨r, by rw [rows, if_neg same, found], rfl, le_rfl, fun _ => rfl⟩

theorem writeBatch_neverBack (nowMs : Nat) (db : Database.Store) (ms : List ArchiveMessage) :
    NeverBack db (writeBatch nowMs db ms) := by
  induction ms generalizing db with
  | nil => exact NeverBack.refl db
  | cons m rest ih => exact (writeMessage_neverBack nowMs db m).trans (ih (writeMessage nowMs db m))

theorem passMachine_neverBack (c : Config Passes ArchiveMessage) (inputs : List PassInput) :
    NeverBack c.state.db (passMachine.run c inputs).state.db := by
  induction inputs generalizing c with
  | nil => exact NeverBack.refl _
  | cons input rest ih =>
    refine NeverBack.trans ?_ (ih (passMachine.advance c input))
    cases input with
    | read p batch => exact NeverBack.refl _
    | write p nowMs =>
      simp only [Machine.advance, passMachine, passStep]
      split
      · exact writeBatch_neverBack nowMs _ _
      · exact NeverBack.refl _

namespace Letter
variable {l : Letter} {origin : Option MessageRow} {db : Database.Store}

theorem Archived.later {db' : Database.Store} (archived : l.Archived db) (later : Advances db db') :
    l.Archived db' := by
  obtain ⟨r, found, written⟩ := archived
  obtain ⟨r', found', -, newer⟩ := later _ r found
  exact ⟨r', found', written.trans newer⟩

theorem Sent.later {db' : Database.Store} {m : ArchiveMessage} (sent : l.Sent db m) (later : Advances db db') :
    l.Sent db' m := by
  rcases sent with inserted | ⟨carries, inHub, same, archived⟩
  · exact .inl inserted
  · exact .inr ⟨carries, inHub, same, fun bare => (archived bare).later later⟩

/-- A write of another id leaves the row alone, and its box once made keeps its id. -/
theorem Holds.keep {db' : Database.Store} {r : MessageRow} (holds : l.Holds origin db r)
    (boxed : ∀ boxId, findMessageBox db l.recipient l.messageBox = some boxId →
      findMessageBox db' l.recipient l.messageBox = some boxId) : l.Holds origin db' r := by
  refine ⟨holds.recipient, holds.sender, holds.body, holds.createdAt, holds.beefKey, ?_, holds.version⟩
  have box := holds.box
  cases origin with
  | none => exact (boxed _ box.symm).symm
  | some o => exact box

section Write
variable (unarchived : ∀ r, origin = some r → r.recipient = l.recipient ∧ r.archiveVersion = 0)
include unarchived

/-- The first version over what D1 held before. -/
theorem holds_inserted (nowMs : Nat) {boxId : Nat} (inHub : Bool)
    (boxed : findMessageBox db l.recipient l.messageBox = some boxId) :
    l.Holds origin db (writtenRow nowMs boxId (l.inserted inHub) origin) := by
  cases origin with
  | none =>
    refine ⟨rfl, rfl, ?_, rfl, rfl, boxed.symm, .inl rfl⟩
    by_cases empty : l.body = "" <;> simp [writtenRow, excludedRow, inserted, empty]
  | some o =>
    obtain ⟨own, older⟩ := unarchived o rfl
    have moves : o.archiveVersion < (l.inserted inHub).version ∧ o.recipient = (l.inserted inHub).recipient := by
      rw [older]
      exact ⟨Nat.zero_lt_one, own⟩
    simp only [writtenRow, if_pos moves]
    refine ⟨own, rfl, ?_, rfl, rfl, rfl, .inl rfl⟩
    by_cases empty : l.body = "" <;> simp [mergeRow, excludedRow, inserted, empty]

/-- The second version with its body, over what D1 held before. -/
theorem holds_acknowledged (nowMs : Nat) {boxId : Nat} (inHub : Bool)
    (boxed : findMessageBox db l.recipient l.messageBox = some boxId) :
    l.Holds origin db (writtenRow nowMs boxId (l.acknowledged true inHub) origin) := by
  cases origin with
  | none =>
    refine ⟨rfl, rfl, ?_, rfl, rfl, boxed.symm, .inr ⟨rfl, Option.some_ne_none _⟩⟩
    by_cases empty : l.body = "" <;> simp [writtenRow, excludedRow, acknowledged, empty]
  | some o =>
    obtain ⟨own, older⟩ := unarchived o rfl
    have moves : o.archiveVersion < (l.acknowledged true inHub).version ∧
        o.recipient = (l.acknowledged true inHub).recipient := by
      rw [older]
      exact ⟨Nat.zero_lt_two, own⟩
    simp only [writtenRow, if_pos moves]
    refine ⟨own, rfl, ?_, rfl, rfl, rfl, .inr ⟨rfl, ?_⟩⟩
    · by_cases empty : l.body = "" <;> simp [mergeRow, excludedRow, acknowledged, empty]
    · cases marked : o.acknowledgedAt <;> simp [mergeRow, excludedRow, acknowledged, marked]

end Write

/-- A message of the row leaves a row already there at its version, or moves it to the second. -/
theorem Holds.write {r : MessageRow} (holds : l.Holds origin db r) (nowMs boxId : Nat) {m : ArchiveMessage}
    (sent : l.Sent db m) : l.Holds origin db (writtenRow nowMs boxId m (some r)) := by
  simp only [writtenRow]
  split
  · rename_i moves
    rcases sent with ⟨inHub, rfl⟩ | ⟨carries, inHub, rfl, -⟩
    · have older : r.archiveVersion < 1 := moves.1
      rcases holds.version with one | ⟨two, -⟩ <;> omega
    · refine ⟨holds.recipient, holds.sender, ?_, holds.createdAt, holds.beefKey, holds.box, .inr ⟨rfl, ?_⟩⟩
      · have body := holds.body
        by_cases empty : l.body = ""
        · cases carries <;> simp_all [mergeRow, excludedRow, acknowledged]
        · cases carries <;> simp_all [mergeRow, excludedRow, acknowledged]
      · cases marked : r.acknowledgedAt <;> simp [mergeRow, excludedRow, acknowledged, marked]
  · exact holds

/-- Whatever D1 holds under the id is the recipient's. -/
theorem Tracked.recipient (tracked : l.Tracked origin db) (own : ∀ r, origin = some r → r.recipient = l.recipient)
    {r : MessageRow} (found : db.row? l.messageId = some r) : r.recipient = l.recipient := by
  rcases tracked with before | ⟨r', found', holds⟩
  · exact own r (before.symm.trans found)
  · rw [found] at found'
    exact Option.some.inj found' ▸ holds.recipient

section Track
variable (unarchived : ∀ r, origin = some r → r.recipient = l.recipient ∧ r.archiveVersion = 0)
include unarchived

theorem Tracked.writeMessage (tracked : l.Tracked origin db) (nowMs : Nat) {m : ArchiveMessage}
    (sent : m.messageId = l.messageId → l.Sent db m) : l.Tracked origin (writeMessage nowMs db m) := by
  obtain ⟨boxId, boxed, rows⟩ := row?_writeMessage_boxed nowMs db m
  have keepBox (old : Nat) (there : findMessageBox db l.recipient l.messageBox = some old) :
      findMessageBox (Archive.writeMessage nowMs db m) l.recipient l.messageBox = some old := by
    rw [findMessageBox, boxes_writeMessage]
    exact findMessageBox_insertBox_of_some there _ _
  by_cases named : m.messageId = l.messageId
  · have row := rows l.messageId
    rw [if_pos named] at row
    rcases tracked with before | ⟨r, found, holds⟩
    · right
      refine ⟨_, row, ?_⟩
      rw [before]
      rcases sent named with ⟨inHub, rfl⟩ | ⟨carries, inHub, rfl, archived⟩
      · exact holds_inserted unarchived nowMs inHub boxed
      · cases carries with
        | true => exact holds_acknowledged unarchived nowMs inHub boxed
        | false =>
          obtain ⟨r, found, written⟩ := archived rfl
          have none := (unarchived r (before.symm.trans found)).2
          omega
    · refine .inr ⟨_, row, ?_⟩
      rw [found]
      exact (holds.write nowMs boxId (sent named)).keep keepBox
  · have row := rows l.messageId
    rw [if_neg named] at row
    rcases tracked with before | ⟨r, found, holds⟩
    · exact .inl (row.trans before)
    · exact .inr ⟨r, row.trans found, holds.keep keepBox⟩

theorem Tracked.writeBatch (tracked : l.Tracked origin db) (nowMs : Nat) {ms : List ArchiveMessage}
    (sent : ∀ m ∈ ms, m.messageId = l.messageId → l.Sent db m) : l.Tracked origin (writeBatch nowMs db ms) := by
  induction ms generalizing db with
  | nil => exact tracked
  | cons m rest ih =>
    apply ih (tracked.writeMessage unarchived nowMs (sent m (List.mem_cons_self ..)))
    intro other inside named
    exact (sent other (List.mem_cons_of_mem _ inside) named).later (writeMessage_advances nowMs db m)

end Track

/-- The invariant of a schedule: the row, the passes that are to be written, and what was delivered. -/
structure Kept (l : Letter) (origin : Option MessageRow) (c : Config Passes ArchiveMessage) : Prop where
  tracked : l.Tracked origin c.state.db
  passes : ∀ p batch verdicts, c.state.planned p = some (batch, verdicts) →
    (∃ held, verdicts = plan batch held ∧ AheadOf c.state.db held) ∧
      ∀ m ∈ batch, m.messageId = l.messageId → l.Sent c.state.db m
  settled : (∃ carries inHub, l.acknowledged carries inHub ∈ c.log) →
    ∃ r, c.state.db.row? l.messageId = some r ∧ 2 ≤ r.archiveVersion

theorem Sent.recipient {m : ArchiveMessage} (sent : l.Sent db m) : m.recipient = l.recipient := by
  rcases sent with ⟨inHub, rfl⟩ | ⟨carries, inHub, rfl, -⟩ <;> rfl

theorem mem_of_applied {batch : List ArchiveMessage} {verdicts : List Verdict} {m : ArchiveMessage}
    (member : m ∈ applied batch verdicts) : m ∈ batch := by
  obtain ⟨⟨m', v⟩, pair, kept⟩ := List.mem_filterMap.mp member
  split at kept
  · cases Option.some.inj kept
    exact (List.of_mem_zip pair).1
  · cases kept

/-- A batch with the row's second version brings D1 to it. -/
theorem Tracked.second (tracked : l.Tracked origin db) (own : ∀ r, origin = some r → r.recipient = l.recipient)
    {batch : List ArchiveMessage} {held : String → Option Held} (ahead : AheadOf db held)
    (sent : ∀ m ∈ batch, m.messageId = l.messageId → l.Sent db m) {carries inHub : Bool}
    (member : l.acknowledged carries inHub ∈ batch) (nowMs : Nat) :
    ∃ r, (Archive.writeBatch nowMs db (applied batch (plan batch held))).row? l.messageId = some r ∧
      2 ≤ r.archiveVersion := by
  obtain ⟨i, here⟩ := List.mem_iff_getElem?.mp member
  obtain ⟨b, lead, -, shared, leads⟩ := best_leads member
  have named : lead.messageId = l.messageId := shared
  have ours := (sent lead (List.mem_of_getElem? leads.1) named).recipient
  obtain ⟨r, found, -, newer⟩ : HeldFor _ lead := by
    apply leader_held nowMs ahead leads
    · intro h known
      obtain ⟨r, found, same, -⟩ := ahead _ h known
      exact same.symm.trans ((tracked.recipient own (named ▸ found)).trans ours.symm)
    · intro _ r found
      exact (tracked.recipient own (named ▸ found)).trans ours.symm
  have rank : (l.acknowledged carries inHub).version ≤ lead.version := by
    have order := leads.2 i _ here shared.symm
    omega
  exact ⟨r, named ▸ found, Nat.le_trans rank newer⟩

theorem Kept.step (unarchived : ∀ r, origin = some r → r.recipient = l.recipient ∧ r.archiveVersion = 0)
    (c : Config Passes ArchiveMessage) (input : PassInput) (kept : l.Kept origin c) (scheduled : l.Scheduled c input) :
    l.Kept origin (passMachine.advance c input) := by
  cases input with
  | read p batch =>
    refine ⟨kept.tracked, fun q batch' verdicts planned => ?_, fun delivered => ?_⟩
    · by_cases same : q = p
      · subst same
        simp only [Machine.advance, passMachine, passStep, Function.update_self, Option.some.injEq, Prod.mk.injEq]
          at planned
        obtain ⟨rfl, rfl⟩ := planned
        exact ⟨⟨_, rfl, heldBy_ahead _ _⟩, scheduled⟩
      · simp only [Machine.advance, passMachine, passStep, Function.update_of_ne same] at planned
        exact kept.passes q batch' verdicts planned
    · simp only [Machine.advance, passMachine, passStep, List.append_nil] at delivered
      exact kept.settled delivered
  | write p nowMs =>
    cases planned : c.state.planned p with
    | none =>
      have still : passMachine.advance c (.write p nowMs) = c := by
        simp [Machine.advance, passMachine, passStep, planned]
      rw [still]
      exact kept
    | some entry =>
      obtain ⟨batch, verdicts⟩ := entry
      obtain ⟨⟨held, rfl, ahead⟩, sent⟩ := kept.passes p batch verdicts planned
      have moved : passMachine.advance c (.write p nowMs) =
          ⟨{ c.state with db := Archive.writeBatch nowMs c.state.db (applied batch (plan batch held)) },
            c.log ++ batch⟩ := by
        simp [Machine.advance, passMachine, passStep, planned]
      have later := writeBatch_advances nowMs c.state.db (applied batch (plan batch held))
      rw [moved]
      refine ⟨?_, fun q batch' verdicts planned' => ?_, fun delivered => ?_⟩
      · exact kept.tracked.writeBatch unarchived nowMs (fun m member => sent m (mem_of_applied member))
      · obtain ⟨⟨held', same, ahead'⟩, sent'⟩ := kept.passes q batch' verdicts planned'
        refine ⟨⟨held', same, fun id h known => ?_⟩, fun m member named => (sent' m member named).later later⟩
        obtain ⟨r, found, own, older⟩ := ahead' id h known
        obtain ⟨r', found', own', newer⟩ := later id r found
        exact ⟨r', found', own'.trans own, older.trans newer⟩
      · obtain ⟨carries, inHub, member⟩ := delivered
        rcases List.mem_append.mp member with before | now
        · obtain ⟨r, found, two⟩ := kept.settled ⟨carries, inHub, before⟩
          obtain ⟨r', found', -, newer⟩ := later _ r found
          exact ⟨r', found', two.trans newer⟩
        · exact kept.tracked.second (fun r there => (unarchived r there).1) ahead sent now nowMs

end Letter

/-- Every schedule that delivers a row's second version ends in the same D1 row, acknowledged at version 2,
and along every schedule no version goes back, no mark is cleared and no row changes its recipient. -/
theorem archive_confluent (l : Letter) (db : Database.Store)
    (unarchived : ∀ r, db.row? l.messageId = some r → r.recipient = l.recipient ∧ r.archiveVersion = 0)
    (inputs : List PassInput) (scheduled : passMachine.Guarded l.Scheduled ⟨Passes.start db, []⟩ inputs) :
    let c := passMachine.run ⟨Passes.start db, []⟩ inputs
    ((∃ carries inHub, l.acknowledged carries inHub ∈ c.log) →
      ∃ r, c.state.db.row? l.messageId = some r ∧ l.Holds (db.row? l.messageId) c.state.db r ∧
        r.archiveVersion = 2 ∧ r.acknowledgedAt ≠ none) ∧
      ∀ first second, inputs = first ++ second →
        NeverBack (passMachine.run ⟨Passes.start db, []⟩ first).state.db c.state.db := by
  intro c
  refine ⟨fun delivered => ?_, fun first second whole => ?_⟩
  · have start : l.Kept (db.row? l.messageId) ⟨Passes.start db, []⟩ := by
      refine ⟨.inl rfl, fun p batch verdicts planned => ?_, fun delivered => ?_⟩
      · cases planned
      · obtain ⟨carries, inHub, none⟩ := delivered
        cases none
    have kept : l.Kept (db.row? l.messageId) c :=
      passMachine.run_invariant (Letter.Kept.step unarchived) start scheduled
    obtain ⟨r, found, two⟩ := kept.settled delivered
    rcases kept.tracked with before | ⟨r', found', holds⟩
    · have none := (unarchived r (before.symm.trans found)).2
      omega
    · rw [found] at found'
      cases Option.some.inj found'
      rcases holds.version with one | second
      · omega
      · exact ⟨r, found, holds, second⟩
  · subst whole
    simp only [c, Machine.run_append]
    exact passMachine_neverBack _ second

def hello : Letter := ⟨"alice", "m", "inbox", "carol", "hello", "2025-10-23 12:00:00"⟩

/-- The acknowledgment written between the read and the write of its insert, then delivered again without
its body beside another recipient's message. -/
def crossedDeliveries : List PassInput :=
  [.read 0 [hello.inserted false], .read 1 [hello.acknowledged true false, hello.inserted false], .write 1 2000,
    .write 0 3000, .read 0 [hello.acknowledged false false, ⟨"bob", "n", 1, .insert, "inbox", "carol", some "hi",
      none, false⟩], .write 0 4000]

theorem archive_confluent_crossedDeliveries :
    ∃ r, (passMachine.run ⟨Passes.start Database.Store.empty, []⟩ crossedDeliveries).state.db.row? "m" = some r ∧
      r.body = "hello" ∧ r.archiveVersion = 2 ∧ r.acknowledgedAt ≠ none := by
  obtain ⟨ends, -⟩ := archive_confluent hello Database.Store.empty (fun r none => by cases none)
    crossedDeliveries (by decide +kernel)
  obtain ⟨r, found, holds, second⟩ := ends ⟨true, false, by decide +kernel⟩
  exact ⟨r, found, holds.body, second⟩

end MessageRelay.Archive
