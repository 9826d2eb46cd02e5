import MessageRelay.Relay.HubInvariant

/-! The archive's writes keep the invariant: what is written under a stored id is the stored body,
and what the hubs are then told is true. -/

namespace MessageRelay.Relay
open MessageRelay.Library MessageRelay.Mailbox MessageRelay.Archive MessageRelay.Database

/-- The part of the invariant that speaks of the bodies in D1. -/
structure BodiesOk (db : Database.Store) (log : List HubEvent) : Prop where
  agree : ∀ recipient seq row seq' row', .stored recipient seq row ∈ log → .stored recipient seq' row' ∈ log →
    row.messageId = row'.messageId → row.body = row'.body ∨ Foreign db recipient row.messageId
  written : ∀ recipient seq row r, .stored recipient seq row ∈ log → db.row? row.messageId = some r →
    r.recipient = recipient → 1 ≤ r.archiveVersion → r.body = row.body
  emptyBody : ∀ recipient seq row r, .stored recipient seq row ∈ log → row.body = "" →
    db.row? row.messageId = some r → r.recipient = recipient → 1 ≤ r.archiveVersion

theorem Kept.bodies {c : HubConfig} (kept : Kept c) : BodiesOk c.state.db c.log :=
  ⟨kept.agree, kept.written, kept.emptyBody⟩

/-- A message's body is the stored one wherever its id is not another recipient's. -/
theorem BodiesOk.body_eq {db : Database.Store} {log : List HubEvent} (bodies : BodiesOk db log)
    {m : ArchiveMessage} (ok : MessageOk db log m) {seq : Nat} {row : NewRow} {b : String}
    (stored : .stored m.recipient seq row ∈ log) (named : row.messageId = m.messageId)
    (own : ¬ Foreign db m.recipient m.messageId) (has : m.body = some b) : b = row.body := by
  obtain ⟨seq', row', stored', named', rfl⟩ := ok.body b has
  rcases bodies.agree _ _ _ _ _ stored' stored (named'.trans named.symm) with same | foreign
  · exact same
  · exact absurd (named' ▸ foreign) own

theorem MessageOk.settled {db : Database.Store} {log : List HubEvent} {m : ArchiveMessage}
    (ok : MessageOk db log m) (read : needsHub m = false) (lost : m.body = none) :
    Settled db m.recipient m.messageId := by
  refine (ok.bodiless lost).resolve_left (fun left => ?_)
  simp [needsHub, left, lost] at read

/-- One write keeps every stored body: the row it makes or moves carries the stored one. -/
theorem BodiesOk.writeMessage {db : Database.Store} {log : List HubEvent} (bodies : BodiesOk db log)
    {m : ArchiveMessage} (ok : MessageOk db log m) (read : needsHub m = false) (nowMs : Nat) :
    BodiesOk (writeMessage nowMs db m) log := by
  obtain ⟨boxId, rows⟩ := row?_writeMessage nowMs db m
  have later := writeMessage_advances nowMs db m
  refine ⟨fun recipient seq row seq' row' first second same =>
    (bodies.agree recipient seq row seq' row' first second same).imp_right (·.advance later), ?_, ?_⟩
  · intro recipient seq row r stored found own written
    rw [rows] at found
    split at found
    swap
    · exact bodies.written recipient seq row r stored found own written
    rename_i named
    cases held : db.row? row.messageId with
    | none =>
      rw [held] at found
      cases Option.some.inj found
      cases own
      have free : ¬ Foreign db m.recipient m.messageId := by
        rintro ⟨r', found', -⟩
        rw [named, held] at found'
        cases found'
      cases has : m.body with
      | none =>
        obtain ⟨r', found', -⟩ := ok.settled read has
        rw [named, held] at found'
        cases found'
      | some b =>
        have same := bodies.body_eq ok stored named.symm free has
        simp [writtenRow, excludedRow, has, same]
    | some old =>
      rw [held] at found
      have moved := Option.some.inj found
      simp only [writtenRow] at moved
      split at moved
      · rename_i moves
        subst moved
        have ownRow : old.recipient = recipient := own
        have mine : m.recipient = recipient := moves.2.symm.trans ownRow
        subst mine
        have free : ¬ Foreign db m.recipient m.messageId := by
          rintro ⟨r', found', other⟩
          rw [named, held] at found'
          exact other (Option.some.inj found' ▸ ownRow)
        have olderBody (positive : 1 ≤ old.archiveVersion) : old.body = row.body :=
          bodies.written _ seq row old stored held ownRow positive
        cases has : m.body with
        | none =>
          obtain ⟨r', found', -, positive⟩ := ok.settled read has
          rw [named, held] at found'
          simpa [mergeRow, excludedRow, has] using olderBody (Option.some.inj found' ▸ positive)
        | some b =>
          have same := bodies.body_eq ok stored named.symm free has
          by_cases empty : b = ""
          · subst empty
            simpa [mergeRow, excludedRow, has] using
              olderBody (bodies.emptyBody _ seq row old stored same.symm held ownRow)
          · simpa [mergeRow, excludedRow, has, empty] using same
      · subst moved
        exact bodies.written recipient seq row old stored held own written
  · intro recipient seq row r stored empty found own
    rw [rows] at found
    split at found
    swap
    · exact bodies.emptyBody recipient seq row r stored empty found own
    cases held : db.row? row.messageId with
    | none =>
      rw [held] at found
      cases Option.some.inj found
      exact ok.counted
    | some old =>
      rw [held] at found
      have kept' := writtenRow_kept nowMs boxId m old
      cases Option.some.inj found
      exact (bodies.emptyBody recipient seq row old stored empty held (kept'.1.symm.trans own)).trans kept'.2

theorem BodiesOk.writeBatch {db : Database.Store} {log : List HubEvent} (bodies : BodiesOk db log) (nowMs : Nat)
    (ms : List ArchiveMessage) (ok : ∀ m ∈ ms, MessageOk db log m ∧ needsHub m = false) :
    BodiesOk (writeBatch nowMs db ms) log := by
  induction ms generalizing db with
  | nil => exact bodies
  | cons m rest ih =>
    have head := ok m (List.mem_cons_self ..)
    refine ih (bodies.writeMessage head.1 head.2 nowMs) (fun other inside => ?_)
    have before := ok other (List.mem_cons_of_mem _ inside)
    have after := before.1.advance (writeMessage_advances nowMs db m) []
    rw [List.append_nil] at after
    exact ⟨after, before.2⟩

theorem doneOk_of_truthful {db : Database.Store} {m : ArchiveMessage} {v : Verdict}
    (truthful : Truthful db m v) (counted : 1 ≤ m.version) : DoneOk db m.recipient (doneOf m v) := by
  unfold Truthful at truthful
  unfold DoneOk
  split at truthful
  · rename_i collides
    rw [if_pos (by simp [doneOf, collides])]
    exact truthful
  · rename_i plain
    rw [if_neg (by simp [doneOf, plain])]
    obtain ⟨r, found, own, newer⟩ := truthful
    exact ⟨r, found, own, counted.trans newer⟩

/-- The write of a planned pass whose ids nobody took in between. -/
theorem Kept.write {c : HubConfig} (kept : Kept c) {p : Nat} {batch : List ArchiveMessage}
    {verdicts : List Verdict} (here : c.state.passes p = .planned batch verdicts)
    (free : ∀ m ∈ applied batch verdicts, Unclaimed c.state.db m) (nowMs : Nat) (answered : Bool) :
    Kept { c with state := writeStep c.state p nowMs answered } := by
  have planned := kept.passes p
  rw [here] at planned
  obtain ⟨messages, held, rfl, ahead, clear⟩ := planned
  have later := writeBatch_advances nowMs c.state.db (applied batch (plan batch held))
  have bodies := kept.bodies.writeBatch nowMs (applied batch (plan batch held))
    (fun m member => messages m (List.of_mem_zip (mem_applied.mp member)).1)
  have moved : Kept ⟨{ c.state with db := writeBatch nowMs c.state.db (applied batch (plan batch held)) },
      c.log⟩ := by
    refine ⟨fun recipient id r found => ?_, fun recipient seq row stored => ?_, bodies.agree, bodies.written,
      bodies.emptyBody, kept.places, kept.unique, fun recipient seq seen => ?_, fun m member => ?_,
      fun q => ?_⟩
    · simpa using (kept.rows recipient id r found).advance later []
    · exact (kept.stored recipient seq row stored).imp_right (.imp (·.advance later) (·.advance later))
    · obtain ⟨row, stored, settled⟩ := kept.gone recipient seq seen
      exact ⟨row, stored, settled.advance later⟩
    · simpa using (kept.queue m member).advance later []
    · simpa using (kept.passes q).advance later []
  simp only [writeStep, here]
  refine moved.setPass p _ ?_
  split
  · intro entry member d inside
    obtain ⟨m, v, pair, addressed, rfl⟩ := mem_doneByRecipient member inside
    rw [← addressed]
    exact doneOk_of_truthful (plan_truthful nowMs ahead free clear pair)
      (messages m (List.of_mem_zip pair).1).1.counted
  · trivial

end MessageRelay.Relay
