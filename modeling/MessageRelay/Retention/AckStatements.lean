import MessageRelay.Retention.Class
import MessageRelay.Mailbox.Rows

/-! The statements of an acknowledgment: the ids in pieces that a statement can bind, the rows of retained boxes marked, then
the other rows deleted, and what running them in order makes of the tables. -/

namespace MessageRelay.Retention
open MessageRelay.Library MessageRelay.Database
open MessageRelay.Mailbox (chunks mem_chunks sqliteTime)

/-- `?, ?, ...` for an IN list. -/
def inPlaceholders (n : Nat) : String := ", ".intercalate (List.replicate n "?")

/-- `(type LIKE ? ESCAPE '\' OR ...)`. -/
def typeFilterSql (column : String) (nPrefixes : Nat) : String :=
  "(" ++ " OR ".intercalate (List.replicate nPrefixes (column ++ " LIKE ? ESCAPE '\\'")) ++ ")"

def retainedBoxExistsSql (nPrefixes : Nat) : String :=
  "EXISTS (SELECT 1 FROM message_boxes mb WHERE mb.message_box_id = messages.message_box_id AND " ++
    typeFilterSql "mb.type" nPrefixes ++ ")"

def d1MaxBoundParams : Nat := 100

/-- The ids one statement carries: the limit less the recipient and the patterns, and at least one. -/
def ackIdsPerStatement (nPrefixes : Nat) : Nat := max (d1MaxBoundParams - (1 + nPrefixes)) 1

/-! What a statement does: its conditions stand in its text one after the other, and each takes its values off the front of
those still bound. -/

inductive Condition where
  | recipientIs
  | unmarked
  | idIn (nIds : Nat)
  | inRetainedBox (nPrefixes : Nat)
  | notInRetainedBox (nPrefixes : Nat)
  deriving DecidableEq, Repr

namespace Condition

def text : Condition → String
  | recipientIs => "recipient = ?"
  | unmarked => "acknowledged_at IS NULL"
  | idIn nIds => "message_id IN (" ++ inPlaceholders nIds ++ ")"
  | inRetainedBox nPrefixes => retainedBoxExistsSql nPrefixes
  | notInRetainedBox nPrefixes => "NOT " ++ retainedBoxExistsSql nPrefixes

def placeholders : Condition → Nat
  | recipientIs => 1
  | unmarked => 0
  | idIn n | inRetainedBox n | notInRetainedBox n => n

def holds (db : Store) (r : MessageRow) (binds : List String) : Condition → Bool
  | recipientIs => binds = [r.recipient]
  | unmarked => r.acknowledgedAt = none
  | idIn _ => r.messageId ∈ binds
  | inRetainedBox _ => retainedBoxExists binds db r
  | notInRetainedBox _ => !retainedBoxExists binds db r

/-- All conditions of a row, the values bound to them in order. -/
def all (db : Store) (r : MessageRow) : List Condition → List String → Bool
  | [], _ => true
  | c :: rest, binds => c.holds db r (binds.take c.placeholders) && all db r rest (binds.drop c.placeholders)

end Condition

inductive Verb where
  | mark
  | remove
  deriving DecidableEq, Repr

def Verb.text : Verb → String
  | mark => "UPDATE messages SET acknowledged_at = datetime('now'), updated_at = datetime('now') "
  | remove => "DELETE FROM messages "

structure AckSql where
  verb : Verb
  conditions : List Condition
  deriving DecidableEq, Repr

def AckSql.text (s : AckSql) : String :=
  s.verb.text ++ "WHERE " ++ " AND ".intercalate (s.conditions.map Condition.text)

def ackUpdateSql (nIds nPrefixes : Nat) : AckSql :=
  ⟨.mark, [.recipientIs, .unmarked, .idIn nIds, .inRetainedBox nPrefixes]⟩

def ackDeleteSql (nIds nPrefixes : Nat) : AckSql :=
  if nPrefixes = 0 then ⟨.remove, [.recipientIs, .idIn nIds]⟩
  else ⟨.remove, [.recipientIs, .idIn nIds, .notInRetainedBox nPrefixes]⟩

/-- A statement and the text values it binds, in order. -/
structure AckStatement where
  sql : AckSql
  binds : List String
  deriving DecidableEq, Repr

def ackStatements (identityKey : String) (ids patterns : List String) : List AckStatement :=
  let per := ackIdsPerStatement patterns.length
  let statement (sql : AckSql) (chunk : List String) : AckStatement := ⟨sql, [identityKey] ++ chunk ++ patterns⟩
  (if 0 < patterns.length then
    (chunks per ids).map (fun chunk => statement (ackUpdateSql chunk.length patterns.length) chunk)
  else []) ++ (chunks per ids).map (fun chunk => statement (ackDeleteSql chunk.length patterns.length) chunk)

/-- The row, marked at the time where it is hit. -/
def marked (hit : Bool) (now : String) (r : MessageRow) : MessageRow :=
  if hit then { r with acknowledgedAt := some now, updatedAt := now } else r

theorem messageId_marked (hit : Bool) (now : String) (r : MessageRow) : (marked hit now r).messageId = r.messageId := by
  cases hit <;> rfl

/-- One statement of the batch and its changes. It is refused with values in another number than its placeholders, and with
more than the limit. -/
def AckStatement.run (s : AckStatement) (now : String) (db : Store) : Option (Store × Nat) :=
  let hit (r : MessageRow) : Bool := Condition.all db r s.sql.conditions s.binds
  if s.binds.length = (s.sql.conditions.map Condition.placeholders).sum ∧ s.binds.length ≤ d1MaxBoundParams then
    match s.sql.verb with
    | .mark =>
      some ({ db with messages := db.messages.map (fun r => marked (hit r) now r) (fun r => messageId_marked (hit r) now r) },
        db.messages.rows.countP hit)
    | .remove => some ({ db with messages := db.messages.keep (fun r => !hit r) }, db.messages.rows.countP hit)
  else none

/-- The statements one after the other, each at its own time, and the sum of their changes. -/
def runAll (db : Store) (clock : Nat → Nat) : List AckStatement → Option (Store × Nat)
  | [] => some (db, 0)
  | s :: rest => do
    let (db, changes) ← s.run (sqliteTime (clock 0)) db
    let (db, later) ← runAll db (fun i => clock (i + 1)) rest
    some (db, changes + later)

/-! The placeholders of a text. -/

theorem count_intercalate {sep : List Char} {c : Char} (free : c ∉ sep) (items : List (List Char)) :
    (sep.intercalate items).count c = (items.map (List.count c)).sum := by
  induction items with
  | nil => rfl
  | cons item rest ih =>
    cases rest with
    | nil => simp
    | cons next rest =>
      rw [List.intercalate_cons_cons, List.count_append, List.count_append, List.count_eq_zero.mpr free, ih, Nat.add_zero]
      rfl

theorem count_ofList (chars : List Char) (c : Char) : (String.ofList chars).toList.count c = chars.count c := by
  rw [String.toList_ofList]

/-- How many values a text binds. -/
def holes (text : String) : Nat := text.toList.count '?'

theorem holes_append (a b : String) : holes (a ++ b) = holes a + holes b := by
  rw [holes, String.toList_append, List.count_append]
  rfl

theorem holes_between (a b c : String) : holes (a ++ b ++ c) = holes a + holes b + holes c := by
  rw [holes_append, holes_append]

theorem holes_intercalate {sep : String} (free : '?' ∉ sep.toList) (items : List String) :
    holes (sep.intercalate items) = (items.map holes).sum := by
  rw [holes, String.toList_intercalate, count_intercalate free, List.map_map]
  rfl

theorem holes_inPlaceholders (n : Nat) : holes (inPlaceholders n) = n := by
  have one : holes "?" = 1 := (count_ofList ['?'] '?').trans (by decide)
  rw [inPlaceholders, holes_intercalate (by decide), List.map_replicate, one, List.sum_replicate, smul_eq_mul, Nat.mul_one]

theorem holes_retainedBoxExistsSql (n : Nat) : holes (retainedBoxExistsSql n) = n := by
  have column : holes "mb.type" = 0 := (count_ofList _ _).trans (by decide)
  have test : holes " LIKE ? ESCAPE '\\'" = 1 := (count_ofList _ _).trans (by decide)
  have types : holes (typeFilterSql "mb.type" n) = n := by
    refine (holes_between _ _ _).trans ?_
    rw [holes_intercalate (by decide), List.map_replicate, List.sum_replicate, smul_eq_mul, holes_append, column, test]
    exact (Nat.zero_add _).trans (Nat.mul_one n)
  have opened : holes "EXISTS (SELECT 1 FROM message_boxes mb WHERE mb.message_box_id = messages.message_box_id AND " = 0 :=
    (count_ofList _ _).trans (by decide)
  have right : holes ")" = 0 := (count_ofList _ _).trans (by decide)
  refine (holes_between _ _ _).trans ?_
  rw [types, opened, right]
  exact Nat.zero_add n

theorem Condition.holes_text (c : Condition) : holes c.text = c.placeholders := by
  cases c with
  | recipientIs => exact (count_ofList _ _).trans (by decide)
  | unmarked => exact (count_ofList _ _).trans (by decide)
  | idIn n =>
    have opened : holes "message_id IN (" = 0 := (count_ofList _ _).trans (by decide)
    have right : holes ")" = 0 := (count_ofList _ _).trans (by decide)
    rw [text, holes_append, holes_append, opened, right, holes_inPlaceholders]
    exact Nat.zero_add n
  | inRetainedBox n => exact holes_retainedBoxExistsSql n
  | notInRetainedBox n =>
    have negated : holes "NOT " = 0 := (count_ofList _ _).trans (by decide)
    rw [text, holes_append, negated, holes_retainedBoxExistsSql]
    exact Nat.zero_add n

theorem AckSql.holes_text (s : AckSql) : holes s.text = (s.conditions.map Condition.placeholders).sum := by
  have verb : holes s.verb.text = 0 := by
    cases s.verb with
    | mark => exact (count_ofList _ _).trans (by decide)
    | remove => exact (count_ofList _ _).trans (by decide)
  have word : holes "WHERE " = 0 := (count_ofList _ _).trans (by decide)
  have each : holes ∘ Condition.text = Condition.placeholders := funext Condition.holes_text
  rw [text, holes_append, holes_append, verb, word, holes_intercalate (by decide), List.map_map, each, Nat.zero_add]

/-! The rows a statement touches. -/

section
variable (identityKey : String) (patterns : List String)

theorem all_ackUpdateSql (db : Store) (chunk : List String) (r : MessageRow) :
    Condition.all db r (ackUpdateSql chunk.length patterns.length).conditions ([identityKey] ++ chunk ++ patterns) =
      ackMarks patterns db identityKey chunk r := by
  simp [ackUpdateSql, Condition.all, Condition.holds, Condition.placeholders, ackMarks, Bool.and_assoc, eq_comm]

theorem retainedBoxExists_nil (db : Store) (r : MessageRow) : retainedBoxExists [] db r = false := by
  simp [retainedBoxExists, typeFilter]

theorem all_ackDeleteSql (db : Store) (chunk : List String) (r : MessageRow) :
    Condition.all db r (ackDeleteSql chunk.length patterns.length).conditions ([identityKey] ++ chunk ++ patterns) =
      ackDeletes patterns db identityKey chunk r := by
  cases patterns with
  | nil => simp [ackDeleteSql, Condition.all, Condition.holds, Condition.placeholders, ackDeletes, eq_comm]
  | cons first rest =>
    simp [ackDeleteSql, Condition.all, Condition.holds, Condition.placeholders, ackDeletes, Bool.and_assoc, eq_comm]

theorem placeholders_ackUpdateSql (chunk : List String) :
    ([identityKey] ++ chunk ++ patterns).length =
      ((ackUpdateSql chunk.length patterns.length).conditions.map Condition.placeholders).sum := by
  simp [ackUpdateSql, Condition.placeholders]
  omega

theorem placeholders_ackDeleteSql (chunk : List String) :
    ([identityKey] ++ chunk ++ patterns).length =
      ((ackDeleteSql chunk.length patterns.length).conditions.map Condition.placeholders).sum := by
  unfold ackDeleteSql
  split_ifs <;> simp [Condition.placeholders] <;> omega

theorem length_binds (chunk : List String) :
    ([identityKey] ++ chunk ++ patterns).length = 1 + chunk.length + patterns.length := by
  simp only [List.length_append, List.length_singleton]

variable {patterns} {chunk : List String} (fits : 1 + chunk.length + patterns.length ≤ d1MaxBoundParams)
include fits

theorem run_ackUpdateSql (now : String) (db : Store) :
    ∃ db', AckStatement.run ⟨ackUpdateSql chunk.length patterns.length, [identityKey] ++ chunk ++ patterns⟩ now db =
        some (db', db.messages.rows.countP (ackMarks patterns db identityKey chunk)) ∧
      db'.boxes = db.boxes ∧ db'.nextBoxId = db.nextBoxId ∧
      db'.messages.rows = db.messages.rows.map (fun r => marked (ackMarks patterns db identityKey chunk r) now r) := by
  have bound := placeholders_ackUpdateSql identityKey patterns chunk
  rw [← length_binds identityKey patterns chunk] at fits
  simp only [AckStatement.run, all_ackUpdateSql, if_pos (And.intro bound fits)]
  exact ⟨_, rfl, rfl, rfl, rfl⟩

theorem run_ackDeleteSql (now : String) (db : Store) :
    ∃ db', AckStatement.run ⟨ackDeleteSql chunk.length patterns.length, [identityKey] ++ chunk ++ patterns⟩ now db =
        some (db', db.messages.rows.countP (ackDeletes patterns db identityKey chunk)) ∧
      db'.boxes = db.boxes ∧ db'.nextBoxId = db.nextBoxId ∧
      db'.messages.rows = db.messages.rows.filter (fun r => !ackDeletes patterns db identityKey chunk r) := by
  have bound := placeholders_ackDeleteSql identityKey patterns chunk
  rw [← length_binds identityKey patterns chunk] at fits
  have verb : (ackDeleteSql chunk.length patterns.length).verb = .remove := by
    unfold ackDeleteSql
    split_ifs <;> rfl
  simp only [AckStatement.run, all_ackDeleteSql, if_pos (And.intro bound fits), verb]
  exact ⟨_, rfl, rfl, rfl, rfl⟩

end

theorem countP_split {p q s : MessageRow → Bool} (either : ∀ r, p r = (q r || s r)) (apart : ∀ r, q r = true → s r = false)
    (rows : List MessageRow) : rows.countP p = rows.countP q + rows.countP s := by
  induction rows with
  | nil => rfl
  | cons r rest ih =>
    rw [List.countP_cons, List.countP_cons, List.countP_cons, ih, either r]
    cases first : q r with
    | true => simp [apart r first]; omega
    | false => simp; omega

section
variable {identityKey : String} {patterns : List String}

theorem ackMarks_boxes {db db' : Store} (same : db'.boxes = db.boxes) (ids : List String) :
    ackMarks patterns db' identityKey ids = ackMarks patterns db identityKey ids := by
  funext r
  simp only [ackMarks, retainedBoxExists, same]

theorem ackDeletes_boxes {db db' : Store} (same : db'.boxes = db.boxes) (ids : List String) :
    ackDeletes patterns db' identityKey ids = ackDeletes patterns db identityKey ids := by
  funext r
  simp only [ackDeletes, retainedBoxExists, same]

/-- A marked row is not marked again. -/
theorem ackMarks_marked (db : Store) (piece rest : List String) (now : String) (r : MessageRow) :
    ackMarks patterns db identityKey rest (marked (ackMarks patterns db identityKey piece r) now r) =
      (!ackMarks patterns db identityKey piece r && ackMarks patterns db identityKey rest r) := by
  cases hit : ackMarks patterns db identityKey piece r with
  | true => simp [marked, ackMarks]
  | false => simp [marked]

theorem ackDeletes_marked (db : Store) (ids : List String) (hit : Bool) (now : String) (r : MessageRow) :
    ackDeletes patterns db identityKey ids (marked hit now r) = ackDeletes patterns db identityKey ids r := by
  cases hit <;> rfl

theorem ackMarks_append (db : Store) (piece rest : List String) (r : MessageRow) :
    ackMarks patterns db identityKey (piece ++ rest) r =
      (ackMarks patterns db identityKey piece r || ackMarks patterns db identityKey rest r) := by
  simp only [ackMarks, List.mem_append, Bool.decide_or]
  grind

theorem ackDeletes_append (db : Store) (piece rest : List String) (r : MessageRow) :
    ackDeletes patterns db identityKey (piece ++ rest) r =
      (ackDeletes patterns db identityKey piece r || ackDeletes patterns db identityKey rest r) := by
  simp only [ackDeletes, List.mem_append, Bool.decide_or]
  grind

variable (identityKey) in
/-- The marks of all pieces, each row marked by the first statement that carries its id. -/
theorem run_marks {pieces : List (List String)}
    (fits : ∀ piece ∈ pieces, 1 + piece.length + patterns.length ≤ d1MaxBoundParams) (db : Store) (clock : Nat → Nat) :
    ∃ (db' : Store) (stamp : String → Nat),
      runAll db clock (pieces.map (fun piece =>
          ⟨ackUpdateSql piece.length patterns.length, [identityKey] ++ piece ++ patterns⟩)) =
        some (db', db.messages.rows.countP (ackMarks patterns db identityKey pieces.flatten)) ∧
      db'.boxes = db.boxes ∧ db'.nextBoxId = db.nextBoxId ∧
      db'.messages.rows = db.messages.rows.map (fun r =>
        marked (ackMarks patterns db identityKey pieces.flatten r) (sqliteTime (clock (stamp r.messageId))) r) := by
  induction pieces generalizing db clock with
  | nil =>
    have idle : ackMarks patterns db identityKey [] = fun _ => false := by
      funext r
      simp [ackMarks]
    refine ⟨db, fun _ => 0, ?_, rfl, rfl, ?_⟩
    · rw [List.flatten_nil, idle, List.countP_false]
      rfl
    · simp [idle, marked]
  | cons piece rest ih =>
    obtain ⟨first, ran, boxes, next, rows⟩ := run_ackUpdateSql identityKey (fits piece List.mem_cons_self)
      (sqliteTime (clock 0)) db
    obtain ⟨last, stamp, ran', boxes', next', rows'⟩ :=
      ih (fun later member => fits later (List.mem_cons_of_mem _ member)) first (fun i => clock (i + 1))
    rw [ackMarks_boxes boxes] at ran' rows'
    refine ⟨last, fun id => if id ∈ piece then 0 else stamp id + 1, ?_, boxes'.trans boxes, next'.trans next, ?_⟩
    · rw [List.map_cons, runAll, ran, Option.bind_eq_bind, Option.bind_some]
      simp only [ran', Option.bind_some, Option.some.injEq, Prod.mk.injEq, true_and]
      rw [rows, List.countP_map, List.flatten_cons]
      refine (countP_split (fun r => ?_) (fun r hit => ?_) db.messages.rows).symm
      · simp only [Function.comp_apply, ackMarks_marked, ackMarks_append]
        grind
      · rw [Function.comp_apply, ackMarks_marked, hit]
        rfl
    · rw [rows', rows, List.map_map]
      refine List.map_congr_left (fun r _ => ?_)
      simp only [Function.comp_apply, ackMarks_marked, List.flatten_cons, ackMarks_append, messageId_marked]
      cases hit : ackMarks patterns db identityKey piece r with
      | true =>
        have inside : r.messageId ∈ piece := by
          simp only [ackMarks, Bool.and_eq_true, decide_eq_true_eq] at hit
          exact hit.1.2
        simp [marked, inside]
      | false =>
        cases later : ackMarks patterns db identityKey rest.flatten r with
        | false => simp [marked]
        | true =>
          have outside : r.messageId ∉ piece := by
            intro inside
            simp [ackMarks] at hit later
            grind
          simp [marked, outside]

variable (identityKey) in
theorem run_deletes {pieces : List (List String)}
    (fits : ∀ piece ∈ pieces, 1 + piece.length + patterns.length ≤ d1MaxBoundParams) (db : Store) (clock : Nat → Nat) :
    ∃ db' : Store,
      runAll db clock (pieces.map (fun piece =>
          ⟨ackDeleteSql piece.length patterns.length, [identityKey] ++ piece ++ patterns⟩)) =
        some (db', db.messages.rows.countP (ackDeletes patterns db identityKey pieces.flatten)) ∧
      db'.boxes = db.boxes ∧ db'.nextBoxId = db.nextBoxId ∧
      db'.messages.rows = db.messages.rows.filter (fun r => !ackDeletes patterns db identityKey pieces.flatten r) := by
  induction pieces generalizing db clock with
  | nil =>
    have idle : ackDeletes patterns db identityKey [] = fun _ => false := by
      funext r
      simp [ackDeletes]
    refine ⟨db, ?_, rfl, rfl, ?_⟩
    · rw [List.flatten_nil, idle, List.countP_false]
      rfl
    · simp [idle]
  | cons piece rest ih =>
    obtain ⟨first, ran, boxes, next, rows⟩ := run_ackDeleteSql identityKey (fits piece List.mem_cons_self)
      (sqliteTime (clock 0)) db
    obtain ⟨last, ran', boxes', next', rows'⟩ :=
      ih (fun later member => fits later (List.mem_cons_of_mem _ member)) first (fun i => clock (i + 1))
    rw [ackDeletes_boxes boxes] at ran' rows'
    refine ⟨last, ?_, boxes'.trans boxes, next'.trans next, ?_⟩
    · rw [List.map_cons, runAll, ran, Option.bind_eq_bind, Option.bind_some]
      simp only [ran', Option.bind_some, Option.some.injEq, Prod.mk.injEq, true_and]
      rw [rows, List.countP_filter, List.flatten_cons]
      refine (countP_split (fun r => ?_) (fun r hit => ?_) db.messages.rows).symm
      · rw [ackDeletes_append]
        grind
      · rw [hit]
        simp
    · rw [rows', rows, List.filter_filter, List.flatten_cons]
      refine List.filter_congr (fun r _ => ?_)
      rw [ackDeletes_append, Bool.not_or, Bool.and_comm]

end

/-! The whole acknowledgment. -/

theorem runAll_append {db db' : Store} {clock : Nat → Nat} {first second : List AckStatement} {changes : Nat}
    (ran : runAll db clock first = some (db', changes)) :
    runAll db clock (first ++ second) =
      (runAll db' (fun i => clock (i + first.length)) second).map (fun after => (after.1, changes + after.2)) := by
  induction first generalizing db clock changes with
  | nil =>
    cases ran
    simp
  | cons s rest ih =>
    rw [runAll, Option.bind_eq_bind, Option.bind_eq_some_iff] at ran
    obtain ⟨⟨middle, here⟩, stepped, ran⟩ := ran
    simp only [Option.bind_eq_some_iff] at ran
    obtain ⟨⟨last, later⟩, ran, same⟩ := ran
    cases same
    rw [List.cons_append, runAll, stepped, Option.bind_eq_bind, Option.bind_some]
    simp only [ih ran, List.length_cons, Nat.add_assoc]
    cases runAll last (fun i => clock (i + (rest.length + 1))) second with
    | none => rfl
    | some after => simp

theorem length_chunk_le {size : Nat} {ids chunk : List String} (member : chunk ∈ chunks size ids) : chunk.length ≤ size := by
  obtain ⟨i, -, rfl⟩ := List.mem_map.mp member
  exact List.length_take_le ..

theorem mem_flatten_chunks {size : Nat} (positive : 0 < size) (ids : List String) (id : String) :
    id ∈ (chunks size ids).flatten ↔ id ∈ ids := by
  rw [List.mem_flatten, ← mem_chunks size positive ids id]

theorem ackMarks_congr {patterns ids ids' : List String} (same : ∀ id, id ∈ ids ↔ id ∈ ids') (db : Store)
    (identityKey : String) : ackMarks patterns db identityKey ids = ackMarks patterns db identityKey ids' := by
  funext r
  simp only [ackMarks, same]

theorem ackDeletes_congr {patterns ids ids' : List String} (same : ∀ id, id ∈ ids ↔ id ∈ ids') (db : Store)
    (identityKey : String) : ackDeletes patterns db identityKey ids = ackDeletes patterns db identityKey ids' := by
  funext r
  simp only [ackDeletes, same]

/-- With fewer than 99 patterns a statement has room for them, the recipient and its ids. -/
theorem chunk_fits {patterns : List String} (few : patterns.length < 99) (ids : List String) :
    ∀ piece ∈ chunks (ackIdsPerStatement patterns.length) ids,
      1 + piece.length + patterns.length ≤ d1MaxBoundParams := by
  intro piece member
  have short : piece.length ≤ max (d1MaxBoundParams - (1 + patterns.length)) 1 := length_chunk_le member
  unfold d1MaxBoundParams at short ⊢
  omega

/-- All marks, then all deletes. -/
theorem runAll_ackStatements (identityKey : String) (ids : List String) {patterns : List String}
    (few : patterns.length < 99) (db : Store) (clock : Nat → Nat) :
    ∃ (db' : Store) (stamp : String → Nat),
      runAll db clock (ackStatements identityKey ids patterns) = some (db',
        db.messages.rows.countP (ackMarks patterns db identityKey ids) +
          db.messages.rows.countP (ackDeletes patterns db identityKey ids)) ∧
      db'.boxes = db.boxes ∧ db'.nextBoxId = db.nextBoxId ∧
      db'.messages.rows = (db.messages.rows.filter (fun r => !ackDeletes patterns db identityKey ids r)).map (fun r =>
        marked (ackMarks patterns db identityKey ids r) (sqliteTime (clock (stamp r.messageId))) r) := by
  let per := ackIdsPerStatement patterns.length
  have positive : 0 < per := Nat.lt_of_lt_of_le Nat.one_pos (Nat.le_max_right ..)
  have fits : ∀ piece ∈ chunks per ids, 1 + piece.length + patterns.length ≤ d1MaxBoundParams := chunk_fits few ids
  have whole : ∀ id, id ∈ (chunks per ids).flatten ↔ id ∈ ids := mem_flatten_chunks positive ids
  by_cases some' : 0 < patterns.length
  · obtain ⟨middle, stamp, ran, boxes, next, rows⟩ := run_marks identityKey fits db clock
    obtain ⟨last, ran', boxes', next', rows'⟩ := run_deletes identityKey fits middle
      (fun i => clock (i + ((chunks per ids).map (fun piece => (⟨ackUpdateSql piece.length patterns.length,
        [identityKey] ++ piece ++ patterns⟩ : AckStatement))).length))
    rw [ackMarks_congr whole] at ran rows
    rw [ackDeletes_boxes boxes, ackDeletes_congr whole] at ran' rows'
    have unmoved (r : MessageRow) : ackDeletes patterns db identityKey ids
        (marked (ackMarks patterns db identityKey ids r) (sqliteTime (clock (stamp r.messageId))) r) =
          ackDeletes patterns db identityKey ids r := ackDeletes_marked ..
    refine ⟨last, stamp, ?_, boxes'.trans boxes, next'.trans next, ?_⟩
    · rw [ackStatements, if_pos some', runAll_append ran, ran', rows, List.countP_map]
      simp only [Function.comp_def, unmoved, Option.map_some]
    · rw [rows', rows, List.filter_map]
      simp only [Function.comp_def, unmoved]
  · have empty : patterns = [] := by simpa using some'
    subst empty
    obtain ⟨last, ran, boxes, next, rows⟩ := run_deletes identityKey fits db clock
    have idle : ackMarks [] db identityKey ids = fun _ => false := by
      funext r
      simp [ackMarks, retainedBoxExists_nil]
    rw [ackDeletes_congr whole] at ran rows
    refine ⟨last, fun _ => 0, ?_, boxes, next, ?_⟩
    · have none' : db.messages.rows.countP (fun _ => false) = 0 := by simp
      rw [ackStatements, if_neg some', List.nil_append, idle, none', Nat.zero_add]
      exact ran
    · rw [rows, idle]
      simp [marked]

/-- Of any acknowledgment each statement binds as many values as its text has places, and no more than the limit. In order
they remove the asked rows outside the retained class, mark the unmarked ones inside it, leave every other row, and their
changes are the rows removed and marked. -/
theorem ack_touches_exactly (identityKey : String) (ids : List String) {patterns : List String} (few : patterns.length < 99)
    (db : Store) (clock : Nat → Nat) :
    (∀ s ∈ ackStatements identityKey ids patterns,
      holes s.sql.text = s.binds.length ∧ s.binds.length ≤ d1MaxBoundParams) ∧
    let asked (r : MessageRow) : Bool := r.recipient = identityKey && r.messageId ∈ ids
    let removed (r : MessageRow) : Bool := asked r && !retainedBoxExists patterns db r
    let newlyMarked (r : MessageRow) : Bool := asked r && r.acknowledgedAt = none && retainedBoxExists patterns db r
    ∃ (db' : Store) (stamp : String → Nat),
      runAll db clock (ackStatements identityKey ids patterns) =
        some (db', db.messages.rows.countP removed + db.messages.rows.countP newlyMarked) ∧
      db'.boxes = db.boxes ∧
      db'.messages.rows = (db.messages.rows.filter (fun r => !removed r)).map (fun r =>
        marked (newlyMarked r) (sqliteTime (clock (stamp r.messageId))) r) := by
  constructor
  · intro s member
    rcases List.mem_append.mp member with mark | delete
    · split_ifs at mark
      · obtain ⟨piece, inside, rfl⟩ := List.mem_map.mp mark
        refine ⟨(AckSql.holes_text _).trans (placeholders_ackUpdateSql identityKey patterns piece).symm, ?_⟩
        exact (length_binds identityKey patterns piece).trans_le (chunk_fits few ids piece inside)
      · cases mark
    · obtain ⟨piece, inside, rfl⟩ := List.mem_map.mp delete
      refine ⟨(AckSql.holes_text _).trans (placeholders_ackDeleteSql identityKey patterns piece).symm, ?_⟩
      exact (length_binds identityKey patterns piece).trans_le (chunk_fits few ids piece inside)
  · intro asked removed newlyMarked
    have marks : ackMarks patterns db identityKey ids = newlyMarked := by
      funext r
      simp only [ackMarks, newlyMarked, asked]
      grind
    have deletes : ackDeletes patterns db identityKey ids = removed := by
      funext r
      cases patterns with
      | nil => simp [ackDeletes, removed, asked, retainedBoxExists_nil]
      | cons first rest => simp [ackDeletes, removed, asked]
    obtain ⟨db', stamp, ran, boxes, -, rows⟩ := runAll_ackStatements identityKey ids few db clock
    rw [marks, deletes] at ran rows
    exact ⟨db', stamp, by rw [ran, Nat.add_comm], boxes, rows⟩

/-- A message in a retained box and one in another. -/
def twoBoxes : Store where
  boxes := ⟨[⟨1, "low_game", "02"⟩, ⟨2, "inbox", "02"⟩], by decide⟩
  nextBoxId := 3
  messages := ⟨[⟨"a", 1, "03", "02", "x", "", "", none, none, 0⟩, ⟨"b", 2, "03", "02", "y", "", "", none, none, 0⟩], by decide⟩

theorem twoBoxes_acknowledged : ∃ db' : Store,
    runAll twoBoxes (fun _ => 0) (ackStatements "02" ["a", "b", "a"] ["low%"]) = some (db', 2) ∧
      db'.messages.rows.map MessageRow.messageId = ["a"] := by
  obtain ⟨db', stamp, ran, -, rows⟩ :=
    (@ack_touches_exactly "02" ["a", "b", "a"] ["low%"] (by decide) twoBoxes (fun _ => 0)).2
  refine ⟨db', ran, ?_⟩
  rw [rows, List.map_map]
  have kept : (MessageRow.messageId ∘ fun r : MessageRow => marked
      ((r.recipient = "02" && r.messageId ∈ ["a", "b", "a"]) && r.acknowledgedAt = none &&
        retainedBoxExists ["low%"] twoBoxes r) (sqliteTime 0) r) = MessageRow.messageId :=
    funext fun r => messageId_marked _ _ r
  exact (congrArg (List.map · _) kept).trans (by decide)

/-- At one time for the whole batch the statements are the acknowledgment of the tables. -/
theorem runAll_acknowledgeMessages {cfg : RetentionConfig} (few : cfg.prefixes.length < 99) (db : Store) (identityKey : String) (ids : List String) (nowMs : Nat) :
    (runAll db (fun _ => nowMs) (ackStatements identityKey ids cfg.likePatterns)).map Prod.fst =
      some (acknowledgeMessages cfg.prefixes db identityKey ids nowMs) := by
  have few' : cfg.likePatterns.length < 99 := by rwa [RetentionConfig.likePatterns, List.length_map]
  obtain ⟨db', stamp, ran, boxes, next, rows⟩ :=
    runAll_ackStatements identityKey ids few' db (fun _ => nowMs)
  have tables {t t' : Table MessageRow.messageId} (same : t.rows = t'.rows) : t = t' := by
    cases t
    cases t'
    cases same
    rfl
  have mark (r : MessageRow) : markAcknowledged cfg.prefixes identityKey ids nowMs db r =
      marked (ackMarks cfg.likePatterns db identityKey ids r) (sqliteTime nowMs) r := by
    rw [markAcknowledged, inRetainedBox_eq cfg]
    simp [marked, ackMarks, and_assoc]
  have removed (r : MessageRow) : ackDeletes cfg.likePatterns db identityKey ids r =
      decide (r.recipient = identityKey ∧ r.messageId ∈ ids ∧ inRetainedBox cfg.prefixes db r = false) := by
    rw [inRetainedBox_eq cfg]
    cases patterns : cfg.likePatterns with
    | nil => simp [ackDeletes, retainedBoxExists_nil]
    | cons first rest => simp [ackDeletes, Bool.and_assoc]
  have messages : db'.messages = (acknowledgeMessages cfg.prefixes db identityKey ids nowMs).messages := by
    apply tables
    have unmoved (r : MessageRow) : ackDeletes cfg.likePatterns db identityKey ids
        (marked (ackMarks cfg.likePatterns db identityKey ids r) (sqliteTime nowMs) r) =
          ackDeletes cfg.likePatterns db identityKey ids r := ackDeletes_marked ..
    simp only [acknowledgeMessages, Table.keep, Table.map, mark, ← removed, List.filter_map, Function.comp_def, unmoved]
    exact rows.trans (congrArg (List.map · _) (funext fun r => (mark r).symm))
  rw [ran, Option.map_some]
  obtain ⟨boxes', nextBoxId', messages'⟩ := db'
  simp only at boxes next messages
  subst boxes next messages
  rfl

end MessageRelay.Retention
