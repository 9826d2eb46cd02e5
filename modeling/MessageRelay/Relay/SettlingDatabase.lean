import MessageRelay.Relay.Settling

/-! D1's side of one hub's rows: the archive's plan and write, the paid insert and the D1 part of an
acknowledgment. -/

namespace MessageRelay.Relay
open MessageRelay.Library MessageRelay.Mailbox MessageRelay.Archive MessageRelay.Database

/-- D1 changes and the mailboxes do not. -/
theorem Moves.setDb {recipient id : String} {w : Hubs} {db : Database.Store}
    (last : Sealed w.db recipient id → Sealed db recipient id)
    (foreign : Foreign db recipient id ↔ Foreign w.db recipient id)
    (unlisted : ¬ Enqueued w recipient id → Unlisted w.db recipient id → Unlisted db recipient id) :
    Moves recipient id w { w with db := db } := by
  refine ⟨fun absent => absent, fun r found live => ⟨r, found, live⟩, fun r found lost => ?_, last, foreign, Iff.rfl,
    unlisted⟩
  have contrary : some r = none := found.symm.trans lost
  cases contrary

/-! The archive's write. -/

/-- What writing one hub's messages may do to D1: its rows stay, and nobody else's row appears. -/
structure WrittenBy (recipient : String) (db db' : Database.Store) : Prop where
  last : ∀ id, Sealed db recipient id → Sealed db' recipient id
  foreign : ∀ id, Foreign db' recipient id ↔ Foreign db recipient id
  marked : Marked db → Marked db'

theorem WrittenBy.trans {recipient : String} {db middle db' : Database.Store} (first : WrittenBy recipient db middle)
    (second : WrittenBy recipient middle db') : WrittenBy recipient db db' :=
  ⟨fun id last => second.last id (first.last id last), fun id => (second.foreign id).trans (first.foreign id),
    fun marked => second.marked (first.marked marked)⟩

theorem writtenRow_marked {nowMs boxId : Nat} {m : ArchiveMessage} (acks : 2 ≤ m.version → m.change = .acknowledge)
    {held : Option MessageRow} (before : ∀ r, held = some r → 2 ≤ r.archiveVersion → r.acknowledgedAt ≠ none)
    (second : 2 ≤ (writtenRow nowMs boxId m held).archiveVersion) :
    (writtenRow nowMs boxId m held).acknowledgedAt ≠ none := by
  cases held with
  | none =>
    have acked : m.change = .acknowledge := acks second
    simp [writtenRow, excludedRow, acked]
  | some r =>
    simp only [writtenRow] at second ⊢
    split
    · rename_i moves
      rw [if_pos moves] at second
      have acked : m.change = .acknowledge := acks second
      cases mark : r.acknowledgedAt <;> simp [mergeRow, excludedRow, acked, mark]
    · rename_i stays
      rw [if_neg stays] at second
      exact before r rfl second

theorem writeMessage_writtenBy {recipient : String} {m : ArchiveMessage} (ours : FromHub recipient m) (nowMs : Nat)
    (db : Database.Store) : WrittenBy recipient db (writeMessage nowMs db m) := by
  obtain ⟨boxId, after⟩ := row?_writeMessage nowMs db m
  have elsewhere (id : String) (other : m.messageId ≠ id) : (writeMessage nowMs db m).row? id = db.row? id := by
    rw [after, if_neg other]
  have here : (writeMessage nowMs db m).row? m.messageId =
      some (writtenRow nowMs boxId m (db.row? m.messageId)) := by rw [after, if_pos rfl]
  constructor
  · intro id last
    by_cases same : m.messageId = id
    · subst same
      obtain ⟨r, found, own, two, acked⟩ := last
      refine ⟨_, here, ?_⟩
      rw [found]
      simp only [writtenRow]
      split
      · rename_i moves
        refine ⟨own, ?_, ?_⟩
        · have version : (mergeRow nowMs (excludedRow nowMs boxId m) r).archiveVersion = m.version := rfl
          omega
        · obtain ⟨mark, marked⟩ := Option.ne_none_iff_exists'.mp acked
          simp [mergeRow, marked]
      · exact ⟨own, two, acked⟩
    · simpa only [Sealed, elsewhere id same] using last
  · intro id
    by_cases same : m.messageId = id
    · subst same
      simp only [Foreign, here, Option.some.injEq, exists_eq_left']
      cases found : db.row? m.messageId with
      | none => simp [writtenRow, excludedRow, ours.1]
      | some r =>
        have kept := (writtenRow_kept nowMs boxId m r).1
        simp [kept]
    · simp only [Foreign, elsewhere id same]
  · intro marked id r found
    by_cases same : m.messageId = id
    · subst same
      rw [here] at found
      cases found
      exact writtenRow_marked ours.2 (fun r found => marked m.messageId r found)
    · rw [elsewhere id same] at found
      exact marked id r found

theorem writeBatch_writtenBy {recipient : String} {ms : List ArchiveMessage} (ours : ∀ m ∈ ms, FromHub recipient m)
    (nowMs : Nat) (db : Database.Store) : WrittenBy recipient db (writeBatch nowMs db ms) := by
  induction ms generalizing db with
  | nil => exact ⟨fun _ last => last, fun _ => Iff.rfl, fun marked => marked⟩
  | cons m rest ih =>
    have first := writeMessage_writtenBy (ours m (List.mem_cons_self ..)) nowMs db
    exact first.trans (ih (fun other inside => ours other (List.mem_cons_of_mem _ inside)) _)

/-- Against what D1 holds, the plan of one hub's batch promises what it will hold. -/
theorem plan_promised {recipient : String} {db : Database.Store} (marked : Marked db) {batch : List ArchiveMessage}
    (ours : ∀ m ∈ batch, FromHub recipient m) :
    ∀ entry ∈ batch.zip (plan batch (heldBy db batch)),
      Promised db recipient (applied batch (plan batch (heldBy db batch))) entry.1 entry.2 := by
  rintro ⟨m, v⟩ member
  obtain ⟨i, here, rfl⟩ := mem_zip_plan.mp member
  have inside := List.mem_of_getElem? here
  have addressed := (ours m inside).1
  obtain ⟨b, lead, leads, named, cases⟩ := verdict_cases batch (heldBy db batch) here
  have leadOurs := ours lead (List.mem_of_getElem? leads.1)
  have rank := leads.2 i m here named.symm
  have read : heldBy db batch m.messageId = (db.row? m.messageId).map (fun r => ⟨r.recipient, r.archiveVersion⟩) :=
    heldBy_of_mem inside
  -- The leader under the hub's own id is applied, or D1 holds it already.
  have follows (owned : ∀ h, heldBy db batch m.messageId = some h → h.recipient = recipient) :
      ¬ Foreign db recipient m.messageId ∧ (2 ≤ m.version → Sealed db recipient m.messageId ∨
        ∃ lead ∈ applied batch (plan batch (heldBy db batch)), lead.messageId = m.messageId ∧ 2 ≤ lead.version) := by
    constructor
    · rintro ⟨r, found, other⟩
      exact other (owned ⟨r.recipient, r.archiveVersion⟩ (by rw [read, found]; rfl))
    · intro second
      have mine : ∀ h, heldBy db batch lead.messageId = some h → h.recipient = lead.recipient := by
        intro h known
        rw [named] at known
        exact (owned h known).trans leadOurs.1.symm
      rcases leader_settled leads mine with written | ⟨h, known, own, newer⟩
      · exact .inr ⟨lead, written, named, by omega⟩
      · obtain ⟨r, found, same, version⟩ := heldBy_ahead db batch _ h known
        rw [named] at found
        have two : 2 ≤ r.archiveVersion := by omega
        exact .inl ⟨r, found, (same.trans own).trans leadOurs.1, two, marked _ r found two⟩
  have known_own {h : Held} (known : heldBy db batch m.messageId = some h) (own : h.recipient = m.recipient) :
      ∀ h', heldBy db batch m.messageId = some h' → h'.recipient = recipient := by
    intro h' known'
    rw [known] at known'
    cases known'
    exact own.trans addressed
  have unknown_own (known : heldBy db batch m.messageId = none) :
      ∀ h', heldBy db batch m.messageId = some h' → h'.recipient = recipient := by
    intro h' known'
    rw [known] at known'
    cases known'
  unfold Promised
  rcases cases with ⟨h, known, ⟨other, judged⟩ | ⟨own, -, judged⟩ | ⟨own, -, -, judged⟩ | ⟨own, -, -, judged⟩⟩ |
    ⟨known, ⟨other, judged⟩ | ⟨-, -, judged⟩ | ⟨-, judged⟩⟩
  · rw [judged, if_pos rfl]
    obtain ⟨r, found, same, -⟩ := heldBy_ahead db batch _ h known
    exact ⟨r, found, fun equal => other (same.symm.trans (equal.trans addressed.symm))⟩
  · rw [judged, if_neg (by simp)]
    exact follows (known_own known own)
  · rw [judged, if_neg (by simp)]
    exact follows (known_own known own)
  · rw [judged, if_neg (by simp)]
    exact follows (known_own known own)
  · exact absurd (leadOurs.1.trans addressed.symm) other
  · rw [judged, if_neg (by simp)]
    exact follows (unknown_own known)
  · rw [judged, if_neg (by simp)]
    exact follows (unknown_own known)

section Steps
variable {recipient : String} {w : Hubs} (settling : Settling recipient w)
include settling

theorem Settling.setDb {db : Database.Store} (moves : ∀ id, Moves recipient id w { w with db := db })
    (marked : Marked db) : Settling recipient { w with db := db } :=
  settling.move moves (fun id r found => (settling.held id r found).2) settling.queue rfl marked

/-- After the write of a planned pass D1 holds what the plan promised. -/
theorem Settling.write {p : Nat} {batch : List ArchiveMessage} {verdicts : List Verdict}
    (here : w.passes p = .planned batch verdicts) (nowMs : Nat) :
    let db := writeBatch nowMs w.db (applied batch verdicts)
    Settling recipient { w with db := db } ∧ (∀ id, Moves recipient id w { w with db := db }) ∧
      ∀ entry ∈ doneByRecipient batch verdicts, ∀ d ∈ entry.2, entry.1 = recipient ∧ DoneHolds db recipient d := by
  intro db
  have ok := settling.passes p
  rw [here] at ok
  obtain ⟨messages, promised⟩ := ok
  have part {m : ArchiveMessage} (member : m ∈ applied batch verdicts) : (m, Verdict.apply) ∈ batch.zip verdicts := by
    obtain ⟨⟨m', v⟩, zipped, kept⟩ := List.mem_filterMap.mp member
    simp only at kept
    split at kept
    · rename_i chosen
      cases kept
      exact chosen ▸ zipped
    · cases kept
  have ours : ∀ m ∈ applied batch verdicts, FromHub recipient m ∧ Enqueued w recipient m.messageId :=
    fun m member => messages m (List.of_mem_zip (part member)).1
  have written := writeBatch_writtenBy (fun m member => (ours m member).1) nowMs w.db
  have moves : ∀ id, Moves recipient id w { w with db := db } := by
    intro id
    refine Moves.setDb (written.last id) (written.foreign id) (fun unhanded unlisted => ?_)
    have untouched : db.row? id = w.db.row? id :=
      row?_writeBatch_other (fun m member same => unhanded (same ▸ (ours m member).2))
    simpa only [Unlisted, untouched] using unlisted
  have marked := written.marked settling.marked
  refine ⟨settling.setDb moves marked, moves, fun entry member d inside => ?_⟩
  -- An applied message meets its own row or none, so it is held after the write.
  have free : ∀ m ∈ applied batch verdicts, Unclaimed w.db m := by
    intro m member r found
    have kept := promised _ (part member)
    rw [Promised, if_neg (by simp)] at kept
    by_contra other
    exact kept.1 ⟨r, found, fun own => other (own.trans (ours m member).1.1.symm)⟩
  have held {m : ArchiveMessage} (member : m ∈ applied batch verdicts) (second : 2 ≤ m.version) :
      Sealed db recipient m.messageId := by
    obtain ⟨r, found, own, version⟩ : HeldFor db m := writeBatch_heldFor (free m member)
      (fun other inside _ => (ours other inside).1.1.trans (ours m member).1.1.symm) member
    have two : 2 ≤ r.archiveVersion := by omega
    exact ⟨r, found, own.trans (ours m member).1.1, two, marked _ r found two⟩
  obtain ⟨m, v, pair, addressed, rfl⟩ := mem_doneByRecipient member inside
  refine ⟨addressed.symm.trans (messages m (List.of_mem_zip pair).1).1.1, ?_⟩
  have kept := promised _ pair
  unfold Promised at kept
  unfold DoneHolds doneOf
  by_cases collision : v = .collision
  · rw [if_pos collision] at kept
    rw [if_pos (by simp [collision])]
    exact (written.foreign _).mpr kept
  · rw [if_neg collision] at kept
    rw [if_neg (by simp [collision])]
    intro second
    rcases kept.2 second with last | ⟨lead, member', named, two⟩
    · exact written.last _ last
    · simp only at named
      exact named ▸ held member' two

/-- A paid row is stored where D1 holds no row of anyone's, and leaves every other id as it was. -/
theorem Settling.paid (messageBox messageId sender body : String) (beefKey : Option String) (nowMs : Nat) :
    let result := insertMessage w.db messageId messageBox sender recipient body beefKey nowMs
    Settling recipient { w with db := result.2 } ∧
      ∀ id, (result.1 = true → id ≠ messageId) → Moves recipient id w { w with db := result.2 } := by
  intro result
  rcases insertMessage_cases w.db messageId messageBox sender recipient body beefKey nowMs with
    ⟨boxId, db, done, free, -, -, rows⟩ | taken
  · have stored : result = (true, db) := done
    rw [stored]
    have last (id : String) (before : Sealed w.db recipient id) : Sealed db recipient id := by
      obtain ⟨r, found, facts⟩ := before
      have other : messageId ≠ id := fun same => by
        rw [← same, free] at found
        cases found
      exact ⟨r, by rw [rows, if_neg other, found], facts⟩
    have foreign (id : String) : Foreign db recipient id ↔ Foreign w.db recipient id := by
      simp only [Foreign, rows]
      by_cases same : messageId = id
      · subst same
        simp [free, paidRow]
      · simp [same]
    refine ⟨⟨settling.held, settling.queue, fun p => ?_, fun id handed => ?_, ?_⟩, fun id other => ?_⟩
    · exact (settling.passes p).move (fun _ handed => handed) last foreign
    · rcases settling.settled id handed with there | sealed' | taken
      · exact .inl there
      · exact .inr (.inl (last id sealed'))
      · exact .inr (.inr ((foreign id).mpr taken))
    · intro id r found two
      simp only [rows] at found
      split at found
      · cases found
        cases two
      · exact settling.marked id r found two
    · refine Moves.setDb (last id) (foreign id) (fun _ unlisted => ?_)
      have differs : messageId ≠ id := fun same => other rfl same.symm
      simpa only [Unlisted, rows, if_neg differs] using unlisted
  · have same : result = (false, insertBox w.db recipient messageBox) := taken
    rw [same]
    have moves (id : String) : Moves recipient id w { w with db := insertBox w.db recipient messageBox } :=
      Moves.setDb (fun last => last) Iff.rfl (fun _ unlisted => unlisted)
    exact ⟨settling.setDb moves settling.marked, fun id _ => moves id⟩

/-- The D1 part of an acknowledgment, where no row it takes was acknowledged by the archive. -/
theorem Settling.acknowledgeMessages {ids : List String} (current : ∀ id ∈ ids, ¬ Sealed w.db recipient id)
    (prefixes : List String) (nowMs : Nat) :
    let db := Database.acknowledgeMessages prefixes w.db recipient ids nowMs
    Settling recipient { w with db := db } ∧ ∀ id, Moves recipient id w { w with db := db } := by
  intro db
  have moves (id : String) : Moves recipient id w { w with db := db } := by
    apply Moves.setDb
    · intro last
      obtain ⟨r, found, facts⟩ := last
      refine ⟨r, acknowledgeMessages_other found ?_, facts⟩
      intro named
      exact current id named.2 ⟨r, found, facts⟩
    · constructor
      · intro foreign
        obtain ⟨r', found, other⟩ := foreign
        obtain ⟨r, before, -, same, -⟩ := acknowledgeMessages_back found
        exact ⟨r, before, same ▸ other⟩
      · intro foreign
        obtain ⟨r, found, other⟩ := foreign
        exact ⟨r, acknowledgeMessages_other found (fun named => other named.1), other⟩
    · intro _ unlisted r' found own
      obtain ⟨r, before, same, -, kept⟩ := acknowledgeMessages_marks found
      exact kept (.inl (unlisted r before (same ▸ own)))
  refine ⟨settling.setDb moves ?_, moves⟩
  intro id r' found two
  obtain ⟨r, before, -, version, kept⟩ := acknowledgeMessages_marks found
  exact kept (.inl (settling.marked id r before (version ▸ two)))

end Steps

end MessageRelay.Relay
