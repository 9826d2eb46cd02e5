import MessageRelay.Relay.InboxHub

/-! What D1's statements do to what is owed. The archive's upsert reaches only rows whose ids were
handed over, an acknowledgment only rows it names, and a paid row only an id D1 does not hold. -/

namespace MessageRelay.Relay
open MessageRelay.Library MessageRelay.Mailbox MessageRelay.Archive MessageRelay.Database

/-- What the archive may do to D1: rows stay with their sender, recipient and body, those of ids
never handed over stay as they are, and so do the boxes. -/
structure Archived (w : Hubs) (after : Database.Store) : Prop where
  sound : Sound { w with db := after }
  rows : ∀ id r, w.db.row? id = some r → ∃ r', after.row? id = some r' ∧ r'.sender = r.sender ∧
    r'.recipient = r.recipient ∧ (r.body ≠ "" → r'.body = r.body)
  others : ∀ id r, w.db.row? id = some r → ¬ Enqueued w r.recipient id → after.row? id = some r
  boxes : ∀ recipient box boxId, findMessageBox w.db recipient box = some boxId →
    findMessageBox after recipient box = some boxId

theorem Archived.refl {w : Hubs} (sound : Sound w) : Archived w w.db :=
  ⟨sound, fun _ r found => ⟨r, found, rfl, rfl, fun _ => rfl⟩, fun _ _ found _ => found,
    fun _ _ _ found => found⟩

theorem Archived.trans {w : Hubs} {middle after : Database.Store} (first : Archived w middle)
    (last : Archived { w with db := middle } after) : Archived w after := by
  refine ⟨last.sound, fun id r found => ?_, fun id r found free => ?_, fun recipient box boxId found => ?_⟩
  · obtain ⟨r', found', from', own, body⟩ := first.rows id r found
    obtain ⟨r'', found'', from'', own', body'⟩ := last.rows id r' found'
    refine ⟨r'', found'', from''.trans from', own'.trans own, fun nonempty => ?_⟩
    rw [body' (body nonempty ▸ nonempty), body nonempty]
  · exact last.others id r (first.others id r found free) free
  · exact last.boxes recipient box boxId (first.boxes recipient box boxId found)

theorem findMessageBox_writeMessage {nowMs : Nat} {db : Database.Store} {recipient box : String} {boxId : Nat}
    (found : findMessageBox db recipient box = some boxId) (m : ArchiveMessage) :
    findMessageBox (writeMessage nowMs db m) recipient box = some boxId := by
  have same : (writeMessage nowMs db m).boxes = (insertBox db m.recipient m.messageBox).boxes := by
    unfold writeMessage archiveUpsert
    split
    · rfl
    · simp only
      split
      · rfl
      · split <;> rfl
  have boxed := findMessageBox_insertBox_of_some found m.recipient m.messageBox
  simpa only [findMessageBox, same] using boxed

theorem mergeRow_body (nowMs : Nat) (excluded held : MessageRow) :
    excluded.body ≠ "" ∧ (mergeRow nowMs excluded held).body = excluded.body ∨
      (mergeRow nowMs excluded held).body = held.body := by
  by_cases filled : excluded.body ≠ ""
  · exact .inl ⟨filled, if_pos filled⟩
  · exact .inr (if_neg filled)

section Write
variable {w : Hubs} {m : ArchiveMessage}

/-- A row the archive moves has the one body under way for its id, or takes it. -/
theorem Sound.moved_body (sound : Sound w) (handed : Enqueued w m.recipient m.messageId)
    (version : m.version ≤ 2) {r : MessageRow} (found : w.db.row? m.messageId = some r)
    (moves : r.archiveVersion < m.version ∧ r.recipient = m.recipient) :
    Agreed w m.recipient m.messageId := by
  rcases sound.agreed m.recipient m.messageId with unhanded | ⟨other, there, -, last, -⟩ | agreed
  · exact absurd handed unhanded
  · rw [found] at there
    cases there
    omega
  · exact agreed

theorem writtenRow_body {recipient : String} (nowMs boxId : Nat) {body : String}
    (carried : ∀ b, m.body = some b → Carried w m.recipient m.messageId b)
    (agree : ∀ b, Carried w recipient m.messageId b → b = body)
    (rows : ∀ r, w.db.row? m.messageId = some r → r.recipient = recipient → r.body = body ∨ r.body = "")
    (own : (writtenRow nowMs boxId m (w.db.row? m.messageId)).recipient = recipient) :
    (writtenRow nowMs boxId m (w.db.row? m.messageId)).body = body ∨
      (writtenRow nowMs boxId m (w.db.row? m.messageId)).body = "" := by
  have excluded (mine : m.recipient = recipient) : m.body.getD "" = body ∨ m.body.getD "" = "" := by
    cases has : m.body with
    | none => exact .inr rfl
    | some b => exact .inl (agree b (mine ▸ carried b has))
  cases found : w.db.row? m.messageId with
  | none =>
    rw [found] at own
    exact excluded own
  | some r =>
    rw [found] at own
    simp only [writtenRow] at own ⊢
    split at own
    · rename_i moves
      rw [if_pos moves]
      rcases mergeRow_body nowMs (excludedRow nowMs boxId m) r with ⟨-, taken⟩ | kept
      · exact taken ▸ excluded (moves.2.symm.trans own)
      · exact kept ▸ rows r found own
    · rename_i stays
      rw [if_neg stays]
      exact rows r found own

theorem Sound.writeMessage (sound : Sound w) (handed : Enqueued w m.recipient m.messageId)
    (version : m.version ≤ 2) (carried : ∀ b, m.body = some b → Carried w m.recipient m.messageId b)
    (nowMs : Nat) : Archived w (Archive.writeMessage nowMs w.db m) := by
  obtain ⟨boxId, after⟩ := row?_writeMessage nowMs w.db m
  have elsewhere (id : String) (other : m.messageId ≠ id) :
      (Archive.writeMessage nowMs w.db m).row? id = w.db.row? id := by rw [after, if_neg other]
  have here : (Archive.writeMessage nowMs w.db m).row? m.messageId =
      some (writtenRow nowMs boxId m (w.db.row? m.messageId)) := by rw [after, if_pos rfl]
  refine ⟨⟨sound.held, sound.queue, sound.passes, fun recipient id => ?_⟩, fun id r found => ?_,
    fun id r found free => ?_, fun recipient box boxId found => findMessageBox_writeMessage found m⟩
  · by_cases same : m.messageId = id
    · subst same
      refine (sound.agreed recipient m.messageId).imp_right (Or.imp ?_ ?_)
      · rintro ⟨r, found, own, last, acked⟩
        refine ⟨r, ?_, own, last, acked⟩
        rw [here, found, writtenRow, if_neg (fun moves => by omega)]
      · rintro ⟨body, agree, rows⟩
        refine ⟨body, agree, fun r' found own => ?_⟩
        rw [here] at found
        cases found
        exact writtenRow_body nowMs boxId carried agree rows own
    · simp only [Sealed, Agreed, elsewhere id same]
      exact sound.agreed recipient id
  · by_cases same : m.messageId = id
    · subst same
      refine ⟨_, here, ?_⟩
      rw [found, writtenRow]
      split
      · rename_i moves
        refine ⟨rfl, rfl, fun nonempty => ?_⟩
        obtain ⟨body, agree, rows⟩ := sound.moved_body handed version found moves
        have whole := (rows r found moves.2).resolve_right nonempty
        rcases mergeRow_body nowMs (excludedRow nowMs boxId m) r with ⟨filled, taken⟩ | kept
        · cases has : m.body with
          | none => exact absurd (by simp [excludedRow, has]) filled
          | some b =>
            rw [taken, whole, ← agree b (carried b has)]
            simp [excludedRow, has]
        · exact kept
      · exact ⟨rfl, rfl, fun _ => rfl⟩
    · exact ⟨r, by rw [elsewhere id same, found], rfl, rfl, fun _ => rfl⟩
  · by_cases same : m.messageId = id
    · subst same
      rw [here, found, writtenRow, if_neg]
      exact fun moves => free (moves.2 ▸ handed)
    · rw [elsewhere id same, found]

end Write

theorem Sound.writeBatch {w : Hubs} (sound : Sound w) (nowMs : Nat) {ms : List ArchiveMessage}
    (ok : ∀ m ∈ ms, Enqueued w m.recipient m.messageId ∧ m.version ≤ 2 ∧
      ∀ b, m.body = some b → Carried w m.recipient m.messageId b) :
    Archived w (Archive.writeBatch nowMs w.db ms) := by
  induction ms generalizing w with
  | nil => exact .refl sound
  | cons m rest ih =>
    obtain ⟨handed, version, carried⟩ := ok m (List.mem_cons_self ..)
    have first := sound.writeMessage handed version carried nowMs
    -- The messages of the rest are carried in the hubs as they stand, whatever D1 holds.
    exact first.trans (ih first.sound (fun other inside => ok other (List.mem_cons_of_mem _ inside)))

/-- The entry a store adds to what is owed. -/
def WorldEvent.entry? : WorldEvent → Option Entry
  | .hub (.stored recipient _ row) =>
    some ⟨.mailbox, recipient, row.messageBox, row.messageId, row.sender, row.body⟩
  | .paid recipient messageBox messageId sender body =>
    some ⟨.database, recipient, messageBox, messageId, sender, body⟩
  | _ => none

theorem mem_owed_stored {db : Database.Store} {log : List WorldEvent} {event : WorldEvent} {e new : Entry}
    (stored : event.entry? = some new) : e ∈ owed db (log ++ [event]) ↔ e ∈ owed db log ∨ e = new := by
  have added : note (owed db log) event = owed db log ++ [new] := by
    unfold WorldEvent.entry? at stored
    split at stored <;> cases stored <;> rfl
  rw [owed, List.foldl_append, List.foldl_cons, List.foldl_nil, ← owed, added, List.mem_append,
    List.mem_singleton]

section DatabaseStep
variable {db : Database.Store} {c : WorldConfig} (faithful : Faithful db c)
include faithful

/-- D1 changes while every row under an id never handed over stays, unless it was acknowledged. -/
theorem Faithful.setDb {after : Database.Store} (more : List WorldEvent)
    (sound : Sound { c.state.hubs with db := after })
    (rows : ∀ id r, c.state.hubs.db.row? id = some r → ¬ Enqueued c.state.hubs r.recipient id →
      (∃ event ∈ more, event.names r.recipient id) ∨ after.row? id = some r)
    (boxes : ∀ recipient box boxId, findMessageBox c.state.hubs.db recipient box = some boxId →
      findMessageBox after recipient box = some boxId)
    (quiet : ∀ event ∈ more, event.stores = false) : Faithful db ⟨c.state.setDb after, c.log ++ more⟩ := by
  refine ⟨sound, fun e member => ?_⟩
  obtain ⟨before, unnamed⟩ := (mem_owed_quiet quiet).mp member
  have ok := faithful.owed e before
  obtain ⟨place, recipient, messageBox, messageId, sender, body⟩ := e
  cases place with
  | mailbox => exact ok
  | database =>
    obtain ⟨⟨r, found, own, facts⟩, free⟩ := ok
    simp only at own free
    refine ⟨⟨r, ?_, own, facts.1, facts.2.1, facts.2.2.1, boxes _ _ _ facts.2.2.2⟩, free⟩
    rcases rows messageId r found (own ▸ free) with ⟨event, inside, names⟩ | stays
    · exact absurd (own ▸ names) (unnamed event inside)
    · exact stays

theorem Faithful.write {p : Nat} {batch : List ArchiveMessage} {verdicts : List Verdict}
    (here : c.state.hubs.passes p = .planned batch verdicts) (nowMs : Nat) :
    Faithful db ⟨c.state.setDb (writeBatch nowMs c.state.hubs.db (applied batch verdicts)), c.log⟩ ∧
      RowsUnaltered c.state.hubs.db (writeBatch nowMs c.state.hubs.db (applied batch verdicts)) := by
  have archived : Archived c.state.hubs (writeBatch nowMs c.state.hubs.db (applied batch verdicts)) := by
    refine faithful.sound.writeBatch nowMs (fun m member => ?_)
    have inside : m ∈ (c.state.hubs.passes p).messages := by
      obtain ⟨⟨m', v⟩, zipped, kept⟩ := List.mem_filterMap.mp member
      simp only at kept
      split at kept
      · cases kept
        rw [here]
        exact (List.of_mem_zip zipped).1
      · cases kept
    obtain ⟨handed, version⟩ := faithful.sound.passes p m inside
    exact ⟨handed, version, fun b has => .inl ⟨m, .inr ⟨p, inside⟩, rfl, rfl, has⟩⟩
  constructor
  · simpa using faithful.setDb [] archived.sound
      (fun id r found free => .inr (archived.others id r found free)) archived.boxes (by simp)
  · intro id r r' found found'
    obtain ⟨r'', there, facts⟩ := archived.rows id r found
    rw [found'] at there
    cases there
    exact facts

theorem Faithful.acknowledgeMessages {recipient : String} {ids : List String}
    (current : ∀ id ∈ ids, ¬ Sealed c.state.hubs.db recipient id) (prefixes : List String) (nowMs : Nat)
    (more : List WorldEvent) (quiet : ∀ event ∈ more, event.stores = false) :
    Faithful db ⟨c.state.setDb (Database.acknowledgeMessages prefixes c.state.hubs.db recipient ids nowMs),
      c.log ++ .acknowledged recipient ids :: more⟩ := by
  refine faithful.setDb _ ⟨faithful.sound.held, faithful.sound.queue, faithful.sound.passes, fun other id => ?_⟩
    (fun id r found free => ?_) (fun _ _ _ found => found) (List.forall_mem_cons.mpr ⟨rfl, quiet⟩)
  · refine (faithful.sound.agreed other id).imp_right (Or.imp ?_ ?_)
    · intro last
      obtain ⟨r, found, own, facts⟩ := last
      refine ⟨r, acknowledgeMessages_other found ?_, own, facts⟩
      rintro ⟨mine, named⟩
      exact current id named ⟨r, found, mine, facts⟩
    · rintro ⟨body, agree, rows⟩
      refine ⟨body, agree, fun r' found own => ?_⟩
      obtain ⟨r, before, -, same, kept⟩ := acknowledgeMessages_back found
      exact kept ▸ rows r before (same ▸ own)
  · by_cases named : r.recipient = recipient ∧ id ∈ ids
    · exact .inl ⟨_, List.mem_cons_self .., named⟩
    · exact .inr (acknowledgeMessages_other found named)

theorem Faithful.insertMessage (recipient messageBox messageId sender body : String) (beefKey : Option String)
    (nowMs : Nat) (fresh : c.state.hubs.db.row? messageId = none → PaidIdFresh c.state.hubs recipient messageId) :
    Faithful db ⟨(paidStep c.state recipient messageBox messageId sender body beefKey nowMs).1,
      c.log ++ (paidStep c.state recipient messageBox messageId sender body beefKey nowMs).2⟩ := by
  have sound := faithful.sound
  rcases insertMessage_cases c.state.hubs.db messageId messageBox sender recipient body beefKey nowMs with
    ⟨boxId, after, done, free, boxes, boxed, rows⟩ | taken
  · have kept : ∀ other box otherId, findMessageBox c.state.hubs.db other box = some otherId →
        findMessageBox after other box = some otherId := by
      intro other box otherId found
      have := findMessageBox_insertBox_of_some found recipient messageBox
      simpa only [findMessageBox, boxes] using this
    simp only [paidStep, done, if_true]
    refine ⟨⟨sound.held, sound.queue, sound.passes, fun other id => ?_⟩, fun e member => ?_⟩
    · by_cases same : messageId = id
      · subst same
        by_cases own : recipient = other
        · exact .inl (own ▸ (fresh free).2)
        · refine (sound.agreed other messageId).imp_right ?_
          rintro (⟨r, found, -⟩ | ⟨body, agree, -⟩)
          · rw [free] at found
            cases found
          · refine .inr ⟨body, agree, fun r found mine => absurd ?_ own⟩
            have paid : after.row? messageId = some r := found
            rw [rows, if_pos rfl] at paid
            cases paid
            exact mine
      · simp only [Sealed, Agreed, World.setDb, rows, if_neg same]
        exact sound.agreed other id
    · rcases (mem_owed_stored rfl).mp member with old | rfl
      · have ok := faithful.owed e old
        obtain ⟨place, other, box, id, from', text⟩ := e
        cases place with
        | mailbox => exact ok
        | database =>
          obtain ⟨⟨r, found, own, from', has, unacked, there⟩, unhanded⟩ := ok
          have other : messageId ≠ id := fun same => by
            simp only [← same, free] at found
            cases found
          refine ⟨⟨r, ?_, own, from', has, unacked, kept _ _ _ there⟩, unhanded⟩
          simp only [World.setDb, rows, if_neg other]
          exact found
      · have paid : after.row? messageId = some (paidRow messageId boxId sender recipient body beefKey nowMs) := by
          rw [rows, if_pos rfl]
        exact ⟨⟨_, paid, rfl, rfl, rfl, rfl, boxed⟩, (fresh free).2⟩
  · simp only [paidStep, taken, if_neg, Bool.false_eq_true, not_false_eq_true]
    exact faithful.setDb [] ⟨sound.held, sound.queue, sound.passes, sound.agreed⟩ (fun _ _ found _ => .inr found)
      (fun _ _ _ found => findMessageBox_insertBox_of_some found _ _) (by simp)

end DatabaseStep

end MessageRelay.Relay
