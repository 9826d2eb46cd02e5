import MessageRelay.Library.Table
import MessageRelay.Archive.Message

/-! The mailbox of one recipient hub: its rows, its counters and the synchronous operations that
the hub commits as one unit each. Row order is insertion order, which is the order of `seq`. -/

namespace MessageRelay.Mailbox
open MessageRelay.Library MessageRelay.Archive

def rowsLimit : Nat := 10000
def bytesLimit : Nat := 2 ^ 30
/-- An owed row is handed to the queue again once its last enqueue is this old. -/
def replayAfterMs : Nat := 120000
def replayPerRequest : Nat := 16
def listLimit : Nat := 100
/-- A message whose JSON is longer than this leaves its body in the hub. -/
def archiveInlineMax : Nat := 120000
/-- The byte budget of one listing. -/
def listInlineBytes : Nat := 16 * 1024 * 1024
def idsPerStatement : Nat := 90

/-- The pieces of a list a statement takes at a time. -/
def chunks {α : Type} (size : Nat) (items : List α) : List (List α) :=
  (List.range ((items.length + size - 1) / size)).map (fun i => (items.drop (i * size)).take size)

private def digits (places n : Nat) : List Char :=
  (List.range places).reverse.map (fun p => Char.ofNat (48 + n / 10 ^ p % 10))

/-- The `datetime('now')` text of an epoch-ms instant before the year 10000. -/
def sqliteTime (ms : Nat) : String :=
  let seconds := ms / 1000 % 86400
  let shifted := ms / 86400000 + 719468
  let dayOfEra := shifted % 146097
  let yearOfEra := (dayOfEra - dayOfEra / 1460 + dayOfEra / 36524 - dayOfEra / 146096) / 365
  let dayOfYear := dayOfEra - (365 * yearOfEra + yearOfEra / 4 - yearOfEra / 100)
  let monthFromMarch := (5 * dayOfYear + 2) / 153
  let day := dayOfYear - (153 * monthFromMarch + 2) / 5 + 1
  let month := if monthFromMarch < 10 then monthFromMarch + 3 else monthFromMarch - 9
  let year := yearOfEra + shifted / 146097 * 400 + (if month ≤ 2 then 1 else 0)
  String.ofList (digits 4 year ++ ['-'] ++ digits 2 month ++ ['-'] ++ digits 2 day ++ [' '] ++
    digits 2 (seconds / 3600) ++ [':'] ++ digits 2 (seconds / 60 % 60) ++ [':'] ++ digits 2 (seconds % 60))

example : sqliteTime 1761220800000 = "2025-10-23 12:00:00" := by decide +kernel

inductive RowState where
  | live
  | acknowledged
  deriving DecidableEq, Repr

/-- One mailbox row. The version counts its changes. The archived version is the highest the archive
confirmed, and the row is owed while the archive lacks the current one. -/
structure Row where
  seq : Nat
  messageId : String
  messageBox : String
  sender : String
  body : Option String
  bodyBytes : Nat
  state : RowState
  version : Nat
  archivedVersion : Nat
  owed : Bool
  enqueuedAt : Option Nat
  collision : Bool
  createdAt : String
  updatedAt : String
  deriving DecidableEq, Repr

/-- The rows in order of their sequence numbers, which are never used twice, and the two counters. -/
structure Store where
  rows : Table Row.messageId
  nextSeq : Nat
  rowsHeld : Int
  bytesHeld : Int
  ordered : (rows.rows.map Row.seq ++ [nextSeq]).Pairwise (· < ·)

def Store.empty : Store :=
  { rows := Table.empty, nextSeq := 1, rowsHeld := 0, bytesHeld := 0, ordered := by simp [Table.empty] }

namespace Store

def find? (mb : Store) (id : String) : Option Row := mb.rows.find? id

/-- Rewrite the row under an id, leaving its id and its place alone. -/
def modify (mb : Store) (id : String) (f : Row → Row) (keepsId : ∀ r, (f r).messageId = r.messageId)
    (keepsSeq : ∀ r, (f r).seq = r.seq) : Store :=
  { mb with
    rows := mb.rows.modify id f keepsId
    ordered := by
      have same : (mb.rows.modify id f keepsId).rows.map Row.seq = mb.rows.rows.map Row.seq := by
        simp only [Table.modify, Table.map, List.map_map]
        refine List.map_congr_left (fun r _ => ?_)
        simp only [Function.comp_apply]
        split
        · exact keepsSeq r
        · rfl
      rw [same]
      exact mb.ordered }

def delete (mb : Store) (id : String) : Store :=
  { mb with
    rows := mb.rows.keep (fun r => r.messageId ≠ id)
    ordered := List.Pairwise.sublist
      ((List.filter_sublist.map Row.seq).append (List.Sublist.refl _)) mb.ordered }

end Store

/-- A row a send asks the mailbox to hold. -/
structure NewRow where
  messageId : String
  messageBox : String
  sender : String
  body : String
  deriving DecidableEq, Repr

structure Bounds where
  rows : Nat
  bytes : Nat
  deriving DecidableEq, Repr

def Bounds.ruled : Bounds := ⟨rowsLimit, bytesLimit⟩

/-- Which bound a full mailbox met, and what it holds. -/
structure Full where
  resource : String
  limit : Nat
  held : Nat
  deriving DecidableEq, Repr

inductive Inserted where
  | stored
  | retried
  | duplicate
  | full (bound : Full)
  deriving DecidableEq, Repr

/-- The live rows held and their bytes, as the counters read. -/
def counters (mb : Store) : Nat × Nat := (mb.rowsHeld.toNat, mb.bytesHeld.toNat)

/-- The row a store writes at the next place. -/
def freshRow (mb : Store) (row : NewRow) (nowMs : Nat) : Row :=
  { seq := mb.nextSeq, messageId := row.messageId, messageBox := row.messageBox, sender := row.sender,
    body := some row.body, bodyBytes := row.body.utf8ByteSize, state := .live, version := 1,
    archivedVersion := 0, owed := true, enqueuedAt := some nowMs, collision := false,
    createdAt := sqliteTime nowMs, updatedAt := sqliteTime nowMs }

/-- The row appended and the counters moved. -/
def Store.append (mb : Store) (row : NewRow) (nowMs : Nat) : Store :=
  { rows := mb.rows.insertIgnore (freshRow mb row nowMs)
    nextSeq := mb.nextSeq + 1
    rowsHeld := mb.rowsHeld + 1
    bytesHeld := mb.bytesHeld + row.body.utf8ByteSize
    ordered := by
      have below := mb.ordered
      rw [Table.rows_insertIgnore]
      simp only [List.pairwise_append, List.mem_singleton, forall_eq] at below ⊢
      split
      · simp only [List.map_append, List.map_cons, List.map_nil, freshRow, List.pairwise_append,
          List.mem_append, List.mem_singleton]
        refine ⟨⟨below.1, by simp, fun a member b same => same ▸ below.2.2 a member⟩, by simp, ?_⟩
        rintro a (member | rfl)
        · exact Nat.lt_succ_of_lt (below.2.2 a member)
        · exact Nat.lt_succ_self _
      · exact ⟨below.1, by simp, fun a member => Nat.lt_succ_of_lt (below.2.2 a member)⟩ }

/-- Store a row, find a repeated hop's own row, or refuse a taken id or a full mailbox. -/
def insert (mb : Store) (row : NewRow) (retry : Bool) (nowMs : Nat) (bounds : Bounds) :
    Inserted × Store :=
  match mb.find? row.messageId with
  | some h =>
    let ours := decide (h.sender = row.sender ∧ h.messageBox = row.messageBox ∧ h.body = some row.body)
    (if retry && ours then .retried else .duplicate, mb)
  | none =>
    let size := row.body.utf8ByteSize
    let (rowsHeld, bytesHeld) := counters mb
    if bounds.rows ≤ rowsHeld then (.full ⟨"messages", bounds.rows, rowsHeld⟩, mb)
    else if bounds.bytes < bytesHeld + size then (.full ⟨"bytes", bounds.bytes, bytesHeld⟩, mb)
    else (.stored, mb.append row nowMs)

/-- A row as the listings return it. -/
structure MessageDbRow where
  messageId : Option String
  body : Option String
  sender : Option String
  createdAt : Option String
  updatedAt : Option String
  deriving DecidableEq, Repr

/-- The rows whose running size, the row included, stays inside the budget. -/
def withinBudget {α : Type} (size : α → Nat) (budget : Nat) : Nat → List α → List α
  | _, [] => []
  | upto, r :: rest =>
    if upto + size r ≤ budget then r :: withinBudget size budget (upto + size r) rest
    else withinBudget size budget (upto + size r) rest

def liveRows (mb : Store) (messageBox : String) : List Row :=
  mb.rows.rows.filter (fun r => r.messageBox = messageBox ∧ r.state = .live)

def Row.listed (r : Row) : MessageDbRow :=
  ⟨some r.messageId, r.body, some r.sender, some r.createdAt, some r.updatedAt⟩

/-- The box's live rows in insertion order, inside the limit and the byte budget. -/
def list (mb : Store) (messageBox : String) (limit inlineBytes : Nat) : List MessageDbRow :=
  (withinBudget Row.bodyBytes inlineBytes 0 ((liveRows mb messageBox).take limit)).map Row.listed

/-- Of some ids, those the mailbox holds in any state. -/
def heldIds (mb : Store) (ids : List String) : List String :=
  ids.filter (fun id => (mb.find? id).isSome)

/-- The ids an acknowledgment moved, and those the mailbox does not hold live. -/
structure Acked where
  acknowledged : List String
  missing : List String
  deriving DecidableEq, Repr

/-- A live row acknowledged: its version counted, owed again, its body dropped once archived. -/
def Row.acknowledge (r : Row) (nowMs : Nat) : Row :=
  { r with
    state := .acknowledged, version := r.version + 1, owed := true, enqueuedAt := some nowMs,
    updatedAt := sqliteTime nowMs, body := if 0 < r.archivedVersion then none else r.body }

def acknowledgeRow (mb : Store) (id : String) (bytes nowMs : Nat) : Store :=
  let moved := mb.modify id (fun r => r.acknowledge nowMs) (fun _ => rfl) (fun _ => rfl)
  { moved with rowsHeld := moved.rowsHeld - 1, bytesHeld := moved.bytesHeld - bytes }

def acknowledgeLoop (retry : Bool) (nowMs : Nat) :
    List String → List String → Store → Acked → Acked × Store
  | [], _, mb, out => (out, mb)
  | id :: rest, seen, mb, out =>
    if id ∈ seen then acknowledgeLoop retry nowMs rest seen mb out
    else
      match mb.find? id with
      | some r =>
        if r.state = .live then
          acknowledgeLoop retry nowMs rest (id :: seen) (acknowledgeRow mb id r.bodyBytes nowMs)
            { out with acknowledged := out.acknowledged ++ [id] }
        else if retry then
          acknowledgeLoop retry nowMs rest (id :: seen) mb
            { out with acknowledged := out.acknowledged ++ [id] }
        else
          acknowledgeLoop retry nowMs rest (id :: seen) mb { out with missing := out.missing ++ [id] }
      | none =>
        acknowledgeLoop retry nowMs rest (id :: seen) mb { out with missing := out.missing ++ [id] }

/-- Acknowledge each id once. A row already acknowledged counts only on a repeated hop. -/
def acknowledge (mb : Store) (ids : List String) (retry : Bool) (nowMs : Nat) : Acked × Store :=
  acknowledgeLoop retry nowMs ids [] mb ⟨[], []⟩

/-- One row as the archive reads it. -/
structure ArchiveRow where
  messageId : String
  messageBox : String
  sender : String
  body : Option String
  state : RowState
  version : Nat
  createdAt : String
  deriving DecidableEq, Repr

def archiveRow (r : Row) : ArchiveRow :=
  ⟨r.messageId, r.messageBox, r.sender, r.body, r.state, r.version, r.createdAt⟩

/-- The rows held under some ids, in order within each statement. -/
def archiveRows (mb : Store) (ids : List String) : List ArchiveRow :=
  (chunks idsPerStatement ids).flatMap
    (fun chunk => (mb.rows.rows.filter (fun r => r.messageId ∈ chunk)).map archiveRow)

/-- NULL sorts before every time. -/
def enqueuedBefore (a b : Row) : Bool :=
  match a.enqueuedAt, b.enqueuedAt with
  | none, _ => true
  | some _, none => false
  | some x, some y => x ≤ y

def owedDue (mb : Store) (nowMs : Nat) : List Row :=
  ((mb.rows.rows.filter (fun r => r.owed && r.enqueuedAt.all (· ≤ nowMs - replayAfterMs))).insertionSort
    (fun a b => enqueuedBefore a b = true)).take replayPerRequest

def renewEnqueued (nowMs : Nat) (mb : Store) (r : Row) : Store :=
  mb.modify r.messageId (fun held => { held with enqueuedAt := some nowMs }) (fun _ => rfl) (fun _ => rfl)

/-- The owed rows due for another enqueue, their enqueue time renewed in the same run. -/
def takeOwedDue (mb : Store) (nowMs : Nat) : List ArchiveRow × Store :=
  ((owedDue mb nowMs).map archiveRow, (owedDue mb nowMs).foldl (renewEnqueued nowMs) mb)

/-- The queue message of one row's current version, its body inside. -/
def inlineMessage (row : ArchiveRow) (recipient : String) : ArchiveMessage :=
  { recipient := recipient, messageId := row.messageId, version := row.version
    change := if row.state = .live then .insert else .acknowledge
    messageBox := row.messageBox, sender := row.sender, body := row.body
    createdAt := some row.createdAt, bodyInHub := false }

/-- The message handed to the queue. A long one leaves its body in the hub. -/
def archiveMessage (row : ArchiveRow) (recipient : String) : ArchiveMessage :=
  if archiveInlineMax < (inlineMessage row recipient).jsonLength ∧ row.body.isSome then
    { inlineMessage row recipient with body := none, bodyInHub := true }
  else inlineMessage row recipient

/-- One confirmation from the archive: the row is held at the version or newer, or the id is
another recipient's. -/
structure Done where
  messageId : String
  version : Nat
  collision : Bool
  deriving DecidableEq, Repr

/-- One confirmation taken: an acknowledged row at its version is deleted, a live one is archived,
an older version moves the archived version and drops an acknowledged row's body. -/
def archiveDoneOne (mb : Store) (d : Done) : Store :=
  match mb.find? d.messageId with
  | none => mb
  | some r =>
    if r.state = .acknowledged ∧ (d.collision ∨ r.version ≤ d.version) then mb.delete d.messageId
    else if d.collision then
      mb.modify d.messageId (fun r => { r with owed := false, collision := true }) (fun _ => rfl) (fun _ => rfl)
    else if r.version ≤ d.version then
      mb.modify d.messageId (fun r => { r with archivedVersion := d.version, owed := false })
        (fun _ => rfl) (fun _ => rfl)
    else
      mb.modify d.messageId
        (fun r => { r with
          archivedVersion := max r.archivedVersion d.version
          body := if r.state = .acknowledged then none else r.body })
        (fun _ => rfl) (fun _ => rfl)

def archiveDone (mb : Store) (done : List Done) : Store := done.foldl archiveDoneOne mb

/-- Which side of a merged listing leads. -/
inductive MergeOrder where
  | d1First
  | mailboxFirst
  deriving DecidableEq, Repr

def bodyLength (r : MessageDbRow) : Nat := r.body.elim 0 String.utf8ByteSize

/-- The merge's loop over both sides: no id twice, cut at the limit and at the byte budget. -/
def mergeLoop (limit inlineBytes : Nat) :
    List MessageDbRow → List String → Nat → List MessageDbRow → List MessageDbRow
  | [], _, _, out => out
  | r :: rest, ids, upto, out =>
    if limit ≤ out.length then out
    else
      match r.messageId with
      | some id =>
        if id ∈ ids then mergeLoop limit inlineBytes rest ids upto out
        else if inlineBytes < upto + bodyLength r then out
        else mergeLoop limit inlineBytes rest (id :: ids) (upto + bodyLength r) (out ++ [r])
      | none =>
        if inlineBytes < upto + bodyLength r then out
        else mergeLoop limit inlineBytes rest ids (upto + bodyLength r) (out ++ [r])

/-- The listing by id. A D1 row whose id the mailbox holds in any state is dropped. -/
def merge (d1 mailbox : List MessageDbRow) (held : List String) (order : MergeOrder)
    (limit inlineBytes : Nat) : List MessageDbRow :=
  let d1 := d1.filter (fun r => r.messageId.all (fun id => id ∉ held))
  let both := match order with
    | .d1First => d1 ++ mailbox
    | .mailboxFirst => mailbox ++ d1
  mergeLoop limit inlineBytes both [] 0 []

end MessageRelay.Mailbox
