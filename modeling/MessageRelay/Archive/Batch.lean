import MessageRelay.Database.Store

/-! The archive consumer's pass over one batch: what D1 holds under the batch's ids, the plan made
against it, the statements of the applied messages, and what each recipient's hub is told. -/

namespace MessageRelay.Archive
open MessageRelay.Library MessageRelay.Mailbox MessageRelay.Database

/-- A row D1 holds under a message id. -/
structure Held where
  recipient : String
  version : Nat
  deriving DecidableEq, Repr

inductive Verdict where
  /-- Written: D1 holds an older version or no row. -/
  | apply
  /-- D1 holds this version or a newer one. -/
  | repeated
  /-- A newer version under the same id is in the same batch. -/
  | superseded
  /-- D1 holds the id for another recipient. -/
  | collision
  deriving DecidableEq, Repr

def heldMap (db : Database.Store) (ids : List String) (id : String) : Option Held :=
  if id ∈ ids then (db.row? id).map (fun r => ⟨r.recipient, r.archiveVersion⟩) else none

def heldBy (db : Database.Store) (batch : List ArchiveMessage) : String → Option Held :=
  heldMap db (batch.map ArchiveMessage.messageId)

/-- One message noted: it takes its id over from an entry of a lower version only. -/
def noteBest (batch : List ArchiveMessage) (best : String → Option Nat) (entry : ArchiveMessage × Nat) :
    String → Option Nat :=
  match best entry.1.messageId with
  | some b =>
    if batch[b]?.elim 0 ArchiveMessage.version < entry.1.version then
      Function.update best entry.1.messageId (some entry.2)
    else best
  | none => Function.update best entry.1.messageId (some entry.2)

/-- Under each id, the index of the highest version, the earliest of equals. -/
def best (batch : List ArchiveMessage) : String → Option Nat :=
  batch.zipIdx.foldl (noteBest batch) (fun _ => none)

def verdict (batch : List ArchiveMessage) (held : String → Option Held) (entry : ArchiveMessage × Nat) :
    Verdict :=
  let m := entry.1
  let b := (best batch m.messageId).getD entry.2
  let lead := batch[b]?.getD m
  let owner := (held m.messageId).elim lead.recipient Held.recipient
  if m.recipient ≠ owner then .collision
  else if b ≠ entry.2 then .superseded
  else
    match held m.messageId with
    | some h => if m.version ≤ h.version then .repeated else .apply
    | none => .apply

def plan (batch : List ArchiveMessage) (held : String → Option Held) : List Verdict :=
  batch.zipIdx.map (verdict batch held)

def excludedRow (nowMs boxId : Nat) (m : ArchiveMessage) : MessageRow :=
  { messageId := m.messageId, messageBoxId := boxId, sender := m.sender, recipient := m.recipient
    body := m.body.getD "", createdAt := m.createdAt.getD (sqliteTime nowMs), updatedAt := sqliteTime nowMs
    acknowledgedAt := if m.change = .acknowledge then some (sqliteTime nowMs) else none
    beefKey := none, archiveVersion := m.version }

/-- The upsert's change of a held row. An empty body keeps the held one, a mark is never cleared. -/
def mergeRow (nowMs : Nat) (excluded held : MessageRow) : MessageRow :=
  { held with
    body := if excluded.body ≠ "" then excluded.body else held.body
    acknowledgedAt := held.acknowledgedAt.or excluded.acknowledgedAt
    archiveVersion := excluded.archiveVersion
    updatedAt := sqliteTime nowMs }

theorem mergeRow_messageId (nowMs : Nat) (excluded held : MessageRow) :
    (mergeRow nowMs excluded held).messageId = held.messageId := rfl

/-- The upsert of one message: a held row moves only to a higher version and only for its own
recipient. -/
def archiveUpsert (nowMs : Nat) (db : Database.Store) (m : ArchiveMessage) : Database.Store :=
  match findMessageBox db m.recipient m.messageBox with
  | none => db
  | some boxId =>
    let excluded := excludedRow nowMs boxId m
    match db.row? m.messageId with
    | none => { db with messages := db.messages.insertIgnore excluded }
    | some held =>
      if held.archiveVersion < excluded.archiveVersion ∧ held.recipient = excluded.recipient then
        let moved := db.messages.modify m.messageId (mergeRow nowMs excluded) (mergeRow_messageId nowMs excluded)
        { db with messages := moved }
      else db

def writeMessage (nowMs : Nat) (db : Database.Store) (m : ArchiveMessage) : Database.Store :=
  archiveUpsert nowMs (insertBox db m.recipient m.messageBox) m

def applied (batch : List ArchiveMessage) (verdicts : List Verdict) : List ArchiveMessage :=
  (batch.zip verdicts).filterMap (fun entry => if entry.2 = .apply then some entry.1 else none)

/-- The applied messages' statements in batch order, as one D1 batch. -/
def writeBatch (nowMs : Nat) (db : Database.Store) (ms : List ArchiveMessage) : Database.Store :=
  ms.foldl (writeMessage nowMs) db

def archiveBatch (nowMs : Nat) (db : Database.Store) (batch : List ArchiveMessage) :
    List Verdict × Database.Store :=
  let verdicts := plan batch (heldBy db batch)
  (verdicts, writeBatch nowMs db (applied batch verdicts))

def pushFor {α : Type} (recipient : String) (item : α) : List (String × List α) → List (String × List α)
  | [] => [(recipient, [item])]
  | (r, items) :: rest =>
    if r = recipient then (r, items ++ [item]) :: rest else (r, items) :: pushFor recipient item rest

def doneOf (m : ArchiveMessage) (v : Verdict) : Done := ⟨m.messageId, m.version, v = .collision⟩

/-- What each recipient's hub is told, in the order the recipients appear. -/
def doneByRecipient (batch : List ArchiveMessage) (verdicts : List Verdict) : List (String × List Done) :=
  (batch.zip verdicts).foldl (fun out entry => pushFor entry.1.recipient (doneOf entry.1 entry.2) out) []

theorem mem_pushFor {α : Type} {recipient : String} {item : α} {lists : List (String × List α)}
    {entry : String × List α} (member : entry ∈ pushFor recipient item lists) :
    ∀ x ∈ entry.2, (x = item ∧ entry.1 = recipient) ∨ ∃ old ∈ lists, old.1 = entry.1 ∧ x ∈ old.2 := by
  induction lists with
  | nil =>
    cases List.mem_singleton.mp member
    intro x inside
    exact .inl ⟨List.mem_singleton.mp inside, rfl⟩
  | cons head rest ih =>
    intro x inside
    unfold pushFor at member
    split at member
    · rename_i same
      rcases List.mem_cons.mp member with rfl | later
      · rcases List.mem_append.mp inside with old | new
        · exact .inr ⟨head, List.mem_cons_self .., rfl, old⟩
        · exact .inl ⟨List.mem_singleton.mp new, same⟩
      · exact .inr ⟨entry, List.mem_cons_of_mem _ later, rfl, inside⟩
    · rcases List.mem_cons.mp member with rfl | later
      · exact .inr ⟨head, List.mem_cons_self .., rfl, inside⟩
      · exact (ih later x inside).imp_right
          (fun ⟨old, there, rest⟩ => ⟨old, List.mem_cons_of_mem _ there, rest⟩)

theorem mem_doneByRecipient {batch : List ArchiveMessage} {verdicts : List Verdict}
    {entry : String × List Done} (member : entry ∈ doneByRecipient batch verdicts) {d : Done}
    (inside : d ∈ entry.2) :
    ∃ m v, (m, v) ∈ batch.zip verdicts ∧ m.recipient = entry.1 ∧ d = doneOf m v := by
  have fold : ∀ (pairs : List (ArchiveMessage × Verdict)) (out : List (String × List Done)),
      entry ∈ pairs.foldl (fun out pair => pushFor pair.1.recipient (doneOf pair.1 pair.2) out) out →
        (∃ m v, (m, v) ∈ pairs ∧ m.recipient = entry.1 ∧ d = doneOf m v) ∨
          ∃ old ∈ out, old.1 = entry.1 ∧ d ∈ old.2 := by
    intro pairs
    induction pairs with
    | nil => exact fun out there => .inr ⟨entry, there, rfl, inside⟩
    | cons pair rest ih =>
      intro out there
      rcases ih _ there with ⟨m, v, later, facts⟩ | ⟨old, pushed, same, has⟩
      · exact .inl ⟨m, v, List.mem_cons_of_mem _ later, facts⟩
      · rcases mem_pushFor pushed d has with ⟨isNew, addressed⟩ | ⟨older, there', same', has'⟩
        · exact .inl ⟨pair.1, pair.2, List.mem_cons_self .., addressed.symm.trans same, isNew⟩
        · exact .inr ⟨older, there', same'.trans same, has'⟩
  rcases fold _ [] member with found | ⟨_, no, -⟩
  · exact found
  · cases no

def bodyFromHub (m : ArchiveMessage) (rows : List ArchiveRow) : Option String :=
  (rows.find? (fun r => r.messageId = m.messageId)).bind ArchiveRow.body

def needsHub (m : ArchiveMessage) : Bool := m.bodyInHub && m.body.isNone

/-- One recipient's hub answered: its messages take their bodies, and those without one are dropped. -/
def fillBodies (recipient : String) (rows : List ArchiveRow) (batch : List ArchiveMessage) :
    List ArchiveMessage :=
  batch.filterMap (fun m =>
    if needsHub m ∧ m.recipient = recipient then
      (bodyFromHub m rows).map (fun body => { m with body := some body })
    else some m)

end MessageRelay.Archive
