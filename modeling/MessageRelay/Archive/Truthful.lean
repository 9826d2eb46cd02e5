import MessageRelay.Archive.Leaders
import MessageRelay.Archive.Writes

/-! When the verdicts of a batch say what D1 ends up holding. The plan gives each id to the highest
version in the batch whoever it is for, so a message of the owner can be judged superseded by one
that is itself a collision; apart from that every verdict is truthful. -/

namespace MessageRelay.Archive
open MessageRelay.Library MessageRelay.Mailbox MessageRelay.Database

/-! The plan, against what was held when it was made. -/

/-- The message's id is its own recipient's in D1 at an older version, while the batch's leading
message under that id names another recipient. -/
def Shadowed (held : String → Option Held) (batch : List ArchiveMessage) (m : ArchiveMessage) : Prop :=
  (∃ h, held m.messageId = some h ∧ h.recipient = m.recipient ∧ h.version < m.version) ∧
    ∃ i lead, Leads batch i lead ∧ lead.messageId = m.messageId ∧ lead.recipient ≠ m.recipient

/-- What a verdict says D1 holds. -/
def Truthful (db : Database.Store) (m : ArchiveMessage) (v : Verdict) : Prop :=
  if v = .collision then HeldByOther db m else HeldFor db m

/-- The plan's cases at one message, with the batch's leader under its id. -/
theorem verdict_cases (batch : List ArchiveMessage) (held : String → Option Held) {m : ArchiveMessage} {i : Nat}
    (here : batch[i]? = some m) :
    ∃ b lead, Leads batch b lead ∧ lead.messageId = m.messageId ∧
      ((∃ h, held m.messageId = some h ∧
          ((h.recipient ≠ m.recipient ∧ verdict batch held (m, i) = .collision) ∨
          (h.recipient = m.recipient ∧ b ≠ i ∧ verdict batch held (m, i) = .superseded) ∨
          (h.recipient = m.recipient ∧ lead = m ∧ m.version ≤ h.version ∧
            verdict batch held (m, i) = .repeated) ∨
          (h.recipient = m.recipient ∧ lead = m ∧ h.version < m.version ∧
            verdict batch held (m, i) = .apply))) ∨
        (held m.messageId = none ∧
          ((lead.recipient ≠ m.recipient ∧ verdict batch held (m, i) = .collision) ∨
          (lead.recipient = m.recipient ∧ b ≠ i ∧ verdict batch held (m, i) = .superseded) ∨
          (lead = m ∧ verdict batch held (m, i) = .apply)))) := by
  obtain ⟨b, lead, found, named, leads⟩ := best_leads (List.mem_of_getElem? here)
  have at' : b = i → lead = m := fun same => Option.some.inj (leads.1.symm.trans (same ▸ here))
  refine ⟨b, lead, leads, named, ?_⟩
  simp only [verdict, found, Option.getD_some, leads.1]
  cases known : held m.messageId with
  | none =>
    right
    simp only [Option.elim_none, true_and]
    by_cases own : m.recipient = lead.recipient
    · by_cases same : b = i
      · exact .inr (.inr ⟨at' same, by simp [own, same]⟩)
      · exact .inr (.inl ⟨own.symm, same, by simp [own, same]⟩)
    · exact .inl ⟨fun e => own e.symm, by simp [own]⟩
  | some h =>
    refine .inl ⟨h, rfl, ?_⟩
    simp only [Option.elim_some]
    by_cases own : m.recipient = h.recipient
    · by_cases same : b = i
      · by_cases newer : m.version ≤ h.version
        · exact .inr (.inr (.inl ⟨own.symm, at' same, newer, by simp [own, same, newer]⟩))
        · exact .inr (.inr (.inr ⟨own.symm, at' same, Nat.lt_of_not_le newer, by simp [own, same, newer]⟩))
      · exact .inr (.inl ⟨own.symm, same, by simp [own, same]⟩)
    · exact .inl ⟨fun e => own e.symm, by simp [own]⟩

theorem mem_zip_plan {batch : List ArchiveMessage} {held : String → Option Held} {m : ArchiveMessage}
    {v : Verdict} : (m, v) ∈ batch.zip (plan batch held) ↔
      ∃ i, batch[i]? = some m ∧ verdict batch held (m, i) = v := by
  simp only [List.mem_iff_getElem?, List.getElem?_zip_eq_some, plan, List.getElem?_map,
    List.getElem?_zipIdx, Option.map_map]
  constructor
  · rintro ⟨i, here, judged⟩
    refine ⟨i, here, ?_⟩
    simpa [here] using judged
  · rintro ⟨i, here, judged⟩
    exact ⟨i, here, by simp [here, judged]⟩

theorem mem_applied {batch : List ArchiveMessage} {held : String → Option Held} {m : ArchiveMessage} :
    m ∈ applied batch (plan batch held) ↔ (m, Verdict.apply) ∈ batch.zip (plan batch held) := by
  simp only [applied, List.mem_filterMap]
  constructor
  · rintro ⟨⟨m', v⟩, member, kept⟩
    split at kept
    · rename_i chosen
      cases Option.some.inj kept
      exact chosen ▸ member
    · cases kept
  · exact fun member => ⟨_, member, by simp⟩

/-- An applied message leads its batch, and its id was its own or nobody's. -/
theorem applied_leads {batch : List ArchiveMessage} {held : String → Option Held} {m : ArchiveMessage}
    (member : m ∈ applied batch (plan batch held)) :
    (∃ i, Leads batch i m) ∧ ∀ h, held m.messageId = some h → h.recipient = m.recipient := by
  obtain ⟨i, here, judged⟩ := mem_zip_plan.mp (mem_applied.mp member)
  obtain ⟨b, lead, leads, named, cases⟩ := verdict_cases batch held here
  rw [judged] at cases
  rcases cases with ⟨h, known, ⟨-, no⟩ | ⟨-, -, no⟩ | ⟨-, -, -, no⟩ | ⟨own, same, -, -⟩⟩ |
    ⟨known, ⟨-, no⟩ | ⟨-, -, no⟩ | ⟨same, -⟩⟩
  · cases no
  · cases no
  · cases no
  · refine ⟨⟨b, same ▸ leads⟩, fun h' known' => ?_⟩
    rw [known] at known'
    exact Option.some.inj known' ▸ own
  · cases no
  · cases no
  · refine ⟨⟨b, same ▸ leads⟩, fun h known' => ?_⟩
    rw [known] at known'
    cases known'

/-- The leader of an owner's id is applied or already held. -/
theorem leader_settled {batch : List ArchiveMessage} {held : String → Option Held} {i : Nat}
    {lead : ArchiveMessage} (leads : Leads batch i lead)
    (owned : ∀ h, held lead.messageId = some h → h.recipient = lead.recipient) :
    lead ∈ applied batch (plan batch held) ∨
      ∃ h, held lead.messageId = some h ∧ h.recipient = lead.recipient ∧ lead.version ≤ h.version := by
  obtain ⟨b, top, leads', named, cases⟩ := verdict_cases batch held leads.1
  obtain ⟨rfl, rfl⟩ := leads'.unique leads named
  rcases cases with ⟨h, known, ⟨other, -⟩ | ⟨-, no, -⟩ | ⟨own, -, newer, -⟩ | ⟨-, -, -, judged⟩⟩ |
    ⟨known, ⟨no, -⟩ | ⟨-, no, -⟩ | ⟨-, judged⟩⟩
  · exact absurd (owned h known) other
  · exact absurd rfl no
  · exact .inr ⟨h, known, own, newer⟩
  · exact .inl (mem_applied.mpr (mem_zip_plan.mpr ⟨b, leads.1, judged⟩))
  · exact absurd rfl no
  · exact absurd rfl no
  · exact .inl (mem_applied.mpr (mem_zip_plan.mpr ⟨b, leads.1, judged⟩))

/-- D1 has moved on from what was read, keeping every row for its recipient. -/
def AheadOf (db : Database.Store) (held : String → Option Held) : Prop :=
  ∀ id h, held id = some h →
    ∃ r, db.row? id = some r ∧ r.recipient = h.recipient ∧ h.version ≤ r.archiveVersion

/-- After the write the leader of an owner's id is held at its version. -/
theorem leader_held {batch : List ArchiveMessage} {held : String → Option Held} {db : Database.Store} (nowMs : Nat)
    (ahead : AheadOf db held) {i : Nat} {lead : ArchiveMessage} (leads : Leads batch i lead)
    (owned : ∀ h, held lead.messageId = some h → h.recipient = lead.recipient)
    (free : lead ∈ applied batch (plan batch held) → Unclaimed db lead) :
    HeldFor (writeBatch nowMs db (applied batch (plan batch held))) lead := by
  rcases leader_settled leads owned with written | ⟨h, known, own, newer⟩
  · refine writeBatch_heldFor (free written) (fun other inside same => ?_) written
    obtain ⟨⟨_, leads'⟩, -⟩ := applied_leads inside
    rw [(leads'.unique leads same).2]
  · obtain ⟨r, found, same, older⟩ := ahead _ h known
    have before : HeldFor db lead := ⟨r, found, same.trans own, newer.trans older⟩
    exact before.advance (writeBatch_advances nowMs db _)

section Planned
variable {batch : List ArchiveMessage} {held : String → Option Held} {db : Database.Store} (nowMs : Nat)
  (ahead : AheadOf db held) (free : ∀ m ∈ applied batch (plan batch held), Unclaimed db m)
include ahead free

/-- A plan no message of which is shadowed is truthful once its applied messages are written, as
long as nobody took their ids in between. -/
theorem plan_truthful (clear : ∀ m ∈ batch, ¬ Shadowed held batch m) {m : ArchiveMessage} {v : Verdict}
    (member : (m, v) ∈ batch.zip (plan batch held)) :
    Truthful (writeBatch nowMs db (applied batch (plan batch held))) m v := by
  obtain ⟨i, here, judged⟩ := mem_zip_plan.mp member
  obtain ⟨b, lead, leads, named, cases⟩ := verdict_cases batch held here
  have later := writeBatch_advances nowMs db (applied batch (plan batch held))
  have rank := leads.2 i m here named.symm
  -- A message of the owner that follows its leader is held where the leader is.
  have follows (own : lead.recipient = m.recipient)
      (owned : ∀ h, held lead.messageId = some h → h.recipient = lead.recipient) :
      HeldFor (writeBatch nowMs db (applied batch (plan batch held))) m := by
    obtain ⟨r, found, same, newer⟩ := leader_held nowMs ahead leads owned (free lead)
    exact ⟨r, named ▸ found, same.trans own, by omega⟩
  have settled {h : Held} (known : held m.messageId = some h) (own : h.recipient = m.recipient)
      (newer : m.version ≤ h.version) :
      HeldFor (writeBatch nowMs db (applied batch (plan batch held))) m := by
    obtain ⟨r, found, same, older⟩ := ahead _ h known
    have before : HeldFor db m := ⟨r, found, same.trans own, newer.trans older⟩
    exact before.advance later
  subst judged
  unfold Truthful
  rcases cases with ⟨h, known, ⟨other, judged⟩ | ⟨own, -, judged⟩ | ⟨own, same, newer, judged⟩ |
    ⟨own, same, -, judged⟩⟩ | ⟨known, ⟨other, judged⟩ | ⟨own, -, judged⟩ | ⟨same, judged⟩⟩
  · rw [judged, if_pos rfl]
    obtain ⟨r, found, same, -⟩ := ahead _ h known
    have before : HeldByOther db m := ⟨r, found, same ▸ other⟩
    exact before.advance later
  · rw [judged, if_neg (by decide)]
    by_cases newer : m.version ≤ h.version
    · exact settled known own newer
    · by_cases ours : lead.recipient = m.recipient
      · refine follows ours (fun h' known' => ?_)
        rw [named, known] at known'
        rw [← Option.some.inj known', own, ours]
      · exact absurd ⟨⟨h, known, own, Nat.lt_of_not_le newer⟩, b, lead, leads, named, ours⟩
          (clear m (List.mem_of_getElem? here))
  · rw [judged, if_neg (by decide)]
    exact settled known own newer
  · rw [judged, if_neg (by decide)]
    refine follows (same ▸ rfl) (fun h' known' => ?_)
    rw [named, known] at known'
    rw [← Option.some.inj known', own, same]
  · rw [judged, if_pos rfl]
    obtain ⟨r, found, same, -⟩ := leader_held nowMs ahead leads
      (fun h' known' => by rw [named, known] at known'; cases known') (free lead)
    exact ⟨r, named ▸ found, same ▸ other⟩
  · rw [judged, if_neg (by decide)]
    exact follows own (fun h' known' => by rw [named, known] at known'; cases known')
  · rw [judged, if_neg (by decide)]
    exact follows (same ▸ rfl) (fun h' known' => by rw [named, known] at known'; cases known')

end Planned

/-! The batch run alone. -/

/-- D1 holds the message's id for its own recipient at an older version, while the batch's leading
message under that id (the highest version, the earliest of equals) names another recipient. -/
def Overshadowed (db : Database.Store) (batch : List ArchiveMessage) (m : ArchiveMessage) : Prop :=
  (∃ r, db.row? m.messageId = some r ∧ r.recipient = m.recipient ∧ r.archiveVersion < m.version) ∧
    ∃ i lead, Leads batch i lead ∧ lead.messageId = m.messageId ∧ lead.recipient ≠ m.recipient

instance (db : Database.Store) (batch : List ArchiveMessage) (m : ArchiveMessage) :
    Decidable (Overshadowed db batch m) :=
  decidable_of_iff ((db.row? m.messageId).any (fun r => r.recipient = m.recipient ∧ r.archiveVersion < m.version) ∧
    ∃ entry ∈ batch.zipIdx, Leads batch entry.2 entry.1 ∧ entry.1.messageId = m.messageId ∧
      entry.1.recipient ≠ m.recipient) (by
    refine and_congr ?_ ⟨?_, ?_⟩
    · cases found : db.row? m.messageId <;> simp
    · rintro ⟨entry, -, leads⟩
      exact ⟨entry.2, entry.1, leads⟩
    · rintro ⟨i, lead, leads, rest⟩
      exact ⟨(lead, i), List.mem_zipIdx_iff_getElem?.mpr leads.1, leads, rest⟩)

theorem heldBy_of_mem {db : Database.Store} {batch : List ArchiveMessage} {m : ArchiveMessage}
    (member : m ∈ batch) :
    heldBy db batch m.messageId = (db.row? m.messageId).map (fun r => ⟨r.recipient, r.archiveVersion⟩) :=
  if_pos (List.mem_map_of_mem member)

theorem overshadowed_iff {db : Database.Store} {batch : List ArchiveMessage} {m : ArchiveMessage}
    (member : m ∈ batch) : Shadowed (heldBy db batch) batch m ↔ Overshadowed db batch m := by
  simp only [Shadowed, Overshadowed, heldBy_of_mem member, Option.map_eq_some_iff]
  refine and_congr_left' ⟨?_, ?_⟩
  · rintro ⟨_, ⟨r, found, rfl⟩, own, older⟩
    exact ⟨r, found, own, older⟩
  · rintro ⟨r, found, own, older⟩
    exact ⟨_, ⟨r, found, rfl⟩, own, older⟩

theorem heldBy_ahead (db : Database.Store) (batch : List ArchiveMessage) : AheadOf db (heldBy db batch) := by
  intro id h known
  unfold heldBy heldMap at known
  split at known
  · obtain ⟨r, found, rfl⟩ := Option.map_eq_some_iff.mp known
    exact ⟨r, found, rfl, le_rfl⟩
  · cases known

theorem applied_unclaimed {db : Database.Store} {batch : List ArchiveMessage} {m : ArchiveMessage}
    (member : m ∈ applied batch (plan batch (heldBy db batch))) : Unclaimed db m := by
  obtain ⟨⟨i, leads⟩, owned⟩ := applied_leads member
  intro r found
  refine owned ⟨r.recipient, r.archiveVersion⟩ ?_
  rw [heldBy_of_mem (List.mem_of_getElem? leads.1), found]
  rfl

theorem row?_writeBatch_other {nowMs : Nat} {db : Database.Store} {ms : List ArchiveMessage} {id : String}
    (absent : ∀ m ∈ ms, m.messageId ≠ id) : (writeBatch nowMs db ms).row? id = db.row? id := by
  induction ms generalizing db with
  | nil => rfl
  | cons m rest ih =>
    obtain ⟨boxId, rows⟩ := row?_writeMessage nowMs db m
    have tail := @ih (writeMessage nowMs db m) (fun other inside => absent other (List.mem_cons_of_mem _ inside))
    exact tail.trans ((rows id).trans (if_neg (absent m (List.mem_cons_self ..))))

/-- No message of an overshadowed id is written. -/
theorem overshadowed_unwritten (nowMs : Nat) {db : Database.Store} {batch : List ArchiveMessage}
    {m : ArchiveMessage} (shadowed : Overshadowed db batch m) :
    (archiveBatch nowMs db batch).2.row? m.messageId = db.row? m.messageId := by
  obtain ⟨⟨r, found, own, -⟩, i, lead, leads, named, other⟩ := shadowed
  refine row?_writeBatch_other (fun written member same => ?_)
  obtain ⟨⟨j, leads'⟩, -⟩ := applied_leads member
  obtain ⟨-, rfl⟩ := leads'.unique leads (same.trans named.symm)
  exact other ((applied_unclaimed member r (same ▸ found)).symm.trans own)

/-- The verdicts of a batch run alone are what D1 ends up holding, unless a message is overshadowed. -/
theorem archiveBatch_truthful_iff (nowMs : Nat) (db : Database.Store) (batch : List ArchiveMessage) :
    (∀ entry ∈ batch.zip (archiveBatch nowMs db batch).1,
        Truthful (archiveBatch nowMs db batch).2 entry.1 entry.2) ↔
      ∀ m ∈ batch, ¬ Overshadowed db batch m := by
  constructor
  · intro truthful m member shadowed
    obtain ⟨⟨r, found, own, older⟩, j, lead, leads, named, other⟩ := id shadowed
    obtain ⟨i, here⟩ := List.mem_iff_getElem?.mp member
    have judged := truthful (m, _) (mem_zip_plan.mpr ⟨i, here, rfl⟩)
    have unwritten := overshadowed_unwritten nowMs shadowed
    unfold Truthful at judged
    split at judged
    · obtain ⟨r', found', taken⟩ := judged
      rw [unwritten, found] at found'
      exact taken (Option.some.inj found' ▸ own)
    · obtain ⟨r', found', -, newer⟩ := judged
      rw [unwritten, found] at found'
      cases Option.some.inj found'
      exact absurd newer (Nat.not_le_of_lt older)
  · rintro clear ⟨m, v⟩ member
    exact plan_truthful nowMs (heldBy_ahead db batch) (fun _ => applied_unclaimed)
      (fun m inside shadowed => clear m inside ((overshadowed_iff inside).mp shadowed)) member

/-- Two recipients' acknowledgments under one id, the first of the batch a collision. -/
def sharedAck (recipient : String) : ArchiveMessage :=
  { recipient := recipient, messageId := "m", version := 2, change := .acknowledge, messageBox := "inbox"
    sender := "carol", body := none, createdAt := none, bodyInHub := false }

/-- Alice's row as the archive wrote it at her insert. -/
def archivedInsert : Database.Store :=
  writeMessage 0 Database.Store.empty
    { sharedAck "alice" with version := 1, change := .insert, body := some "hello" }

theorem archiveBatch_superseded_by_collision :
    ¬ ∀ (nowMs : Nat) (db : Database.Store) (batch : List ArchiveMessage),
      ∀ entry ∈ batch.zip (archiveBatch nowMs db batch).1,
        Truthful (archiveBatch nowMs db batch).2 entry.1 entry.2 := by
  intro always
  have judged := always 0 archivedInsert [sharedAck "bob", sharedAck "alice"]
    (sharedAck "alice", .superseded) (by decide +kernel)
  obtain ⟨r, found, -, newer⟩ : HeldFor _ _ := judged
  have stale : (archiveBatch 0 archivedInsert [sharedAck "bob", sharedAck "alice"]).2.row? "m" =
      archivedInsert.row? "m" := by decide +kernel
  have version : (archivedInsert.row? "m").map MessageRow.archiveVersion = some 1 := by decide +kernel
  rw [show (sharedAck "alice").messageId = "m" from rfl, stale] at found
  rw [found] at version
  have older : r.archiveVersion = 1 := Option.some.inj version
  change 2 ≤ r.archiveVersion at newer
  omega

end MessageRelay.Archive
