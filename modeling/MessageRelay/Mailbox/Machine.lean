import MessageRelay.Library.Machine
import MessageRelay.Mailbox.Rows

/-! One hub's mailbox as a machine. Each input is one operation, committed as a unit, and its
answer is what the machine emits. -/

namespace MessageRelay.Mailbox
open MessageRelay.Library

/-- Where the id is free an insert stores or meets a bound. -/
theorem insert_absent {mb : Store} {row : NewRow} (free : mb.find? row.messageId = none) (retry : Bool) (nowMs : Nat)
    (bounds : Bounds) :
    (∃ bound, insert mb row retry nowMs bounds = (.full bound, mb)) ∨
      insert mb row retry nowMs bounds = (.stored, mb.append row nowMs) ∧
        mb.rowsHeld.toNat < bounds.rows ∧ mb.bytesHeld.toNat + row.body.utf8ByteSize ≤ bounds.bytes := by
  simp only [insert, free]
  by_cases fullRows : bounds.rows ≤ (counters mb).1
  · rw [if_pos fullRows]
    exact .inl ⟨_, rfl⟩
  · rw [if_neg fullRows]
    by_cases fullBytes : bounds.bytes < (counters mb).2 + row.body.utf8ByteSize
    · rw [if_pos fullBytes]
      exact .inl ⟨_, rfl⟩
    · rw [if_neg fullBytes]
      exact .inr ⟨rfl, Nat.lt_of_not_le fullRows, Nat.le_of_not_lt fullBytes⟩

/-- An insert stores where the id is free and there is room, or leaves the mailbox alone. -/
theorem insert_cases (mb : Store) (row : NewRow) (retry : Bool) (nowMs : Nat) (bounds : Bounds) :
    (∃ outcome ≠ .stored, insert mb row retry nowMs bounds = (outcome, mb)) ∨
      insert mb row retry nowMs bounds = (.stored, mb.append row nowMs) ∧ mb.find? row.messageId = none ∧
        mb.rowsHeld.toNat < bounds.rows ∧ mb.bytesHeld.toNat + row.body.utf8ByteSize ≤ bounds.bytes := by
  cases found : mb.find? row.messageId with
  | some h =>
    left
    simp only [insert, found]
    refine ⟨_, ?_, rfl⟩
    split <;> simp
  | none =>
    rcases insert_absent found retry nowMs bounds with ⟨bound, full⟩ | ⟨stored, room⟩
    · exact .inl ⟨.full bound, by simp, full⟩
    · exact .inr ⟨stored, rfl, room⟩

theorem insert_of_stored {mb : Store} {row : NewRow} {retry : Bool} {nowMs : Nat} {bounds : Bounds}
    (stored : (insert mb row retry nowMs bounds).1 = .stored) :
    mb.find? row.messageId = none ∧ insert mb row retry nowMs bounds = (.stored, mb.append row nowMs) := by
  rcases insert_cases mb row retry nowMs bounds with ⟨outcome, unstored, same⟩ | ⟨same, free, -⟩
  · rw [same] at stored
    exact absurd stored unstored
  · exact ⟨free, same⟩

inductive MailboxInput where
  | insert (row : NewRow) (retry : Bool) (nowMs : Nat)
  | acknowledge (ids : List String) (retry : Bool) (nowMs : Nat)
  | takeOwedDue (nowMs : Nat)
  | archiveDone (done : List Done)
  deriving DecidableEq, Repr

inductive Answer where
  | inserted (outcome : Inserted)
  | acked (acked : Acked)
  | owed (rows : List ArchiveRow)
  deriving DecidableEq, Repr

def mailboxStep (bounds : Bounds) (mb : Store) : MailboxInput → Store × List Answer
  | .insert row retry nowMs =>
    let (outcome, mb') := insert mb row retry nowMs bounds
    (mb', [.inserted outcome])
  | .acknowledge ids retry nowMs =>
    let (acked, mb') := acknowledge mb ids retry nowMs
    (mb', [.acked acked])
  | .takeOwedDue nowMs =>
    let (rows, mb') := takeOwedDue mb nowMs
    (mb', [.owed rows])
  | .archiveDone done => (archiveDone mb done, [])

def mailboxMachine (bounds : Bounds) : Machine Store MailboxInput Answer := ⟨mailboxStep bounds⟩

/-- The mailbox after some operations. -/
def after (bounds : Bounds) (mb : Store) (inputs : List MailboxInput) : Store :=
  ((mailboxMachine bounds).run ⟨mb, []⟩ inputs).state

/-- The operation acknowledges an id. -/
def MailboxInput.acknowledges (id : String) : MailboxInput → Prop
  | .acknowledge ids _ _ => id ∈ ids
  | _ => False

instance (id : String) (input : MailboxInput) : Decidable (input.acknowledges id) :=
  match input with
  | .acknowledge ids _ _ => inferInstanceAs (Decidable (id ∈ ids))
  | .insert .. | .takeOwedDue _ | .archiveDone _ => .isFalse (fun never => never)

@[simp] theorem after_nil (bounds : Bounds) (mb : Store) : after bounds mb [] = mb := rfl

/-- The log has no say in what the mailbox becomes. -/
theorem run_state (bounds : Bounds) (c : Config Store Answer) (inputs : List MailboxInput) :
    ((mailboxMachine bounds).run c inputs).state = after bounds c.state inputs := by
  have either (c c' : Config Store Answer) (same : c.state = c'.state) :
      ((mailboxMachine bounds).run c inputs).state = ((mailboxMachine bounds).run c' inputs).state := by
    induction inputs generalizing c c' with
    | nil => exact same
    | cons input rest ih =>
      apply ih
      simp only [Machine.advance, same]
  exact either c ⟨c.state, []⟩ rfl

@[simp] theorem after_cons (bounds : Bounds) (mb : Store) (input : MailboxInput) (rest : List MailboxInput) :
    after bounds mb (input :: rest) = after bounds (mailboxStep bounds mb input).1 rest := by
  rw [after, Machine.run_cons, run_state]
  rfl

theorem after_append (bounds : Bounds) (mb : Store) (first second : List MailboxInput) :
    after bounds mb (first ++ second) = after bounds (after bounds mb first) second := by
  rw [after, Machine.run_append, run_state]
  rfl

/-- What every operation keeps holds after any of them. -/
theorem after_invariant {bounds : Bounds} {inv : Store → Prop} {ok : MailboxInput → Prop}
    (step : ∀ mb input, inv mb → ok input → inv (mailboxStep bounds mb input).1) {mb : Store} (start : inv mb)
    {inputs : List MailboxInput} (all : ∀ input ∈ inputs, ok input) : inv (after bounds mb inputs) := by
  induction inputs generalizing mb with
  | nil => exact start
  | cons input rest ih =>
    rw [after_cons]
    exact ih (step mb input start (all input (List.mem_cons_self ..)))
      (fun later inside => all later (List.mem_cons_of_mem _ inside))

end MessageRelay.Mailbox
