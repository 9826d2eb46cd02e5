import MessageRelay.Relay.Inbox

/-! A row stored in a mailbox and handed to the queue: what the hubs hold after it, and what is
under way. -/

namespace MessageRelay.Relay
open MessageRelay.Library MessageRelay.Mailbox MessageRelay.Archive MessageRelay.Database

theorem archiveMessage_carries {row : ArchiveRow} {recipient b : String}
    (has : (archiveMessage row recipient).body = some b) : row.body = some b := by
  rcases archiveMessage_cases row recipient with inside | ⟨-, left⟩
  · rw [inside] at has
    exact has
  · rw [left] at has
    cases has

/-- The hubs after a row is stored and handed over. -/
def Hubs.stored (w : Hubs) (recipient : String) (row : NewRow) (nowMs : Nat) : Hubs :=
  let mb := (w.mailboxes recipient).append row nowMs
  (w.setMailbox recipient mb).enqueueAfter recipient (archiveRows mb [row.messageId])

/-- The row a store writes in the recipient's mailbox. -/
def Hubs.fresh (w : Hubs) (recipient : String) (row : NewRow) (nowMs : Nat) : Row :=
  freshRow (w.mailboxes recipient) row nowMs

section Stored
variable {w : Hubs} {recipient : String} {row : NewRow} {nowMs : Nat}

theorem Hubs.find?_stored_other {other : String} (differs : other ≠ recipient) (id : String) :
    ((w.stored recipient row nowMs).mailboxes other).find? id = (w.mailboxes other).find? id := by
  simp only [Hubs.stored, Hubs.enqueueAfter, Hubs.setMailbox, Function.update_of_ne differs]

variable (free : (w.mailboxes recipient).find? row.messageId = none)
include free

theorem Hubs.find?_stored (id : String) :
    ((w.stored recipient row nowMs).mailboxes recipient).find? id =
      if row.messageId = id then some (w.fresh recipient row nowMs) else (w.mailboxes recipient).find? id := by
  simp only [Hubs.stored, Hubs.enqueueAfter, Hubs.setMailbox, Function.update_self]
  exact Store.find?_append free nowMs id

theorem Hubs.held_stored {other id : String} {r : Row}
    (found : ((w.stored recipient row nowMs).mailboxes other).find? id = some r) :
    (w.mailboxes other).find? id = some r ∨
      other = recipient ∧ id = row.messageId ∧ r = w.fresh recipient row nowMs := by
  by_cases own : other = recipient
  · subst own
    rw [Hubs.find?_stored free] at found
    split at found
    · rename_i same
      exact .inr ⟨rfl, same.symm, (Option.some.inj found).symm⟩
    · exact .inl found
  · rw [Hubs.find?_stored_other own] at found
    exact .inl found

/-- The one message handed over is the fresh row's. -/
theorem Hubs.mem_queue_stored {m : ArchiveMessage} :
    m ∈ (w.stored recipient row nowMs).queue ↔ m ∈ w.queue ∨
      archiveMessage (archiveRow (w.fresh recipient row nowMs)) recipient = m := by
  have found := Store.find?_append free nowMs row.messageId
  rw [if_pos rfl] at found
  simp only [Hubs.stored, Hubs.enqueueAfter, List.mem_append, List.mem_map]
  refine or_congr_right ⟨?_, ?_⟩
  · rintro ⟨_, member, rfl⟩
    obtain ⟨held, there, named, rfl⟩ := mem_archiveRows.mp member
    rw [List.mem_singleton.mp named, found] at there
    cases there
    rfl
  · rintro rfl
    exact ⟨_, mem_archiveRows.mpr ⟨w.fresh recipient row nowMs, found, List.mem_singleton.mpr rfl, rfl⟩, rfl⟩

theorem Hubs.enqueued_stored {other id : String} :
    Enqueued (w.stored recipient row nowMs) other id ↔
      Enqueued w other id ∨ other = recipient ∧ id = row.messageId := by
  obtain ⟨addressed, named, -⟩ := archiveMessage_named (archiveRow (w.fresh recipient row nowMs)) recipient
  constructor
  · rintro ⟨m, member, rfl, rfl⟩
    rcases (Hubs.mem_queue_stored free).mp member with old | rfl
    · exact .inl ⟨m, old, rfl, rfl⟩
    · exact .inr ⟨addressed, named⟩
  · rintro (⟨m, old, facts⟩ | ⟨rfl, rfl⟩)
    · exact ⟨m, (Hubs.mem_queue_stored free).mpr (.inl old), facts⟩
    · exact ⟨_, (Hubs.mem_queue_stored free).mpr (.inr rfl), addressed, named⟩

theorem Hubs.carried_stored {other id body : String} (carried : Carried (w.stored recipient row nowMs) other id body) :
    Carried w other id body ∨ other = recipient ∧ id = row.messageId ∧ body = row.body := by
  obtain ⟨addressed, named, -⟩ := archiveMessage_named (archiveRow (w.fresh recipient row nowMs)) recipient
  rcases carried with ⟨m, there | ⟨p, there⟩, rfl, rfl, has⟩ | ⟨r, there, has⟩
  · rcases (Hubs.mem_queue_stored free).mp there with old | rfl
    · exact .inl (.inl ⟨m, .inl old, rfl, rfl, has⟩)
    · exact .inr ⟨addressed, named, (Option.some.inj (archiveMessage_carries has)).symm⟩
  · exact .inl (.inl ⟨m, .inr ⟨p, there⟩, rfl, rfl, has⟩)
  · rcases Hubs.held_stored free there with old | ⟨rfl, rfl, rfl⟩
    · exact .inl (.inr ⟨r, old, has⟩)
    · exact .inr ⟨rfl, rfl, (Option.some.inj has).symm⟩

end Stored

end MessageRelay.Relay
