import MessageRelay.Mailbox.Listing
import MessageRelay.Mailbox.Quota

/-! A stored row stays live in its place, with its body, until it is acknowledged. The archive's
confirmations may come late, twice, out of order or with a collision. -/

namespace MessageRelay.Mailbox
open MessageRelay.Library

/-- The row a send stored at a place, as it was stored. -/
structure Row.Keeps (r : Row) (row : NewRow) (place : Nat) : Prop where
  named : r.messageId = row.messageId
  boxed : r.messageBox = row.messageBox
  sent : r.sender = row.sender
  body : r.body = some row.body
  live : r.state = .live
  placed : r.seq = place

def Store.seqs (mb : Store) : List Nat := mb.rows.rows.map Row.seq

/-- No row is put, or put back, before a place. -/
structure Places (place : Nat) (before : List Nat) (mb : Store) : Prop where
  ahead : (mb.seqs.filter (· < place)).Sublist before
  next : place ≤ mb.nextSeq

theorem Store.seqs_modify (mb : Store) (id : String) (f : Row → Row)
    (keepsId : ∀ r, (f r).messageId = r.messageId) (keepsSeq : ∀ r, (f r).seq = r.seq) :
    (mb.modify id f keepsId keepsSeq).seqs = mb.seqs := by
  simp only [Store.seqs, Store.modify, Table.modify, Table.map, List.map_map]
  apply List.map_congr_left
  intro r _
  simp only [Function.comp_apply]
  split
  · exact keepsSeq r
  · rfl

section Place
variable {place : Nat} {before : List Nat} {mb : Store}

theorem Places.of_seqs {mb' : Store} (places : Places place before mb) (fewer : mb'.seqs.Sublist mb.seqs)
    (next : mb'.nextSeq = mb.nextSeq) : Places place before mb' :=
  ⟨(fewer.filter _).trans places.ahead, next ▸ places.next⟩

theorem Places.append (places : Places place before mb) {row : NewRow} (free : mb.find? row.messageId = none)
    (nowMs : Nat) : Places place before (mb.append row nowMs) := by
  have rows : (mb.append row nowMs).rows.rows = mb.rows.rows ++ [freshRow mb row nowMs] := by
    simp only [Store.append, Table.rows_insertIgnore]
    exact if_pos free
  have late : ¬ mb.nextSeq < place := Nat.not_lt.mpr places.next
  refine ⟨?_, Nat.le_succ_of_le places.next⟩
  simp only [Store.seqs, rows, List.map_append, List.map_cons, List.map_nil, freshRow, List.filter_append]
  rw [List.filter_cons_of_neg (by simpa using late), List.filter_nil, List.append_nil]
  exact places.ahead

theorem acknowledgeLoop_seqs (retry : Bool) (nowMs : Nat) (ids seen : List String) (mb : Store) (out : Acked) :
    (acknowledgeLoop retry nowMs ids seen mb out).2.seqs = mb.seqs := by
  induction ids generalizing seen mb out with
  | nil => rfl
  | cons id rest ih =>
    unfold acknowledgeLoop
    split
    · exact ih ..
    · split
      · split
        · rw [ih]
          exact Store.seqs_modify mb id (fun r => r.acknowledge nowMs) (fun _ => rfl) (fun _ => rfl)
        · split <;> exact ih ..
      · exact ih ..

theorem takeOwedDue_seqs (mb : Store) (nowMs : Nat) : (takeOwedDue mb nowMs).2.seqs = mb.seqs := by
  have fold (due : List Row) (mb : Store) : (due.foldl (renewEnqueued nowMs) mb).seqs = mb.seqs := by
    induction due generalizing mb with
    | nil => rfl
    | cons d rest ih => exact (ih _).trans (Store.seqs_modify ..)
  exact fold (owedDue mb nowMs) mb

theorem archiveDoneOne_seqs (mb : Store) (d : Done) : (archiveDoneOne mb d).seqs.Sublist mb.seqs := by
  unfold archiveDoneOne
  split
  · exact List.Sublist.refl _
  · split
    · exact List.filter_sublist.map Row.seq
    · split
      · rw [Store.seqs_modify]
      · split
        · rw [Store.seqs_modify]
        · rw [Store.seqs_modify]

theorem Places.archiveDone (places : Places place before mb) (done : List Done) :
    Places place before (archiveDone mb done) := by
  induction done generalizing mb with
  | nil => exact places
  | cons d rest ih => exact ih (places.of_seqs (archiveDoneOne_seqs mb d) (archiveDoneOne_nextSeq mb d))

theorem Places.step (bounds : Bounds) (places : Places place before mb) (input : MailboxInput) :
    Places place before (mailboxStep bounds mb input).1 := by
  cases input with
  | insert row retry nowMs =>
    simp only [mailboxStep]
    rcases insert_cases mb row retry nowMs bounds with ⟨outcome, -, same⟩ | ⟨same, free, -⟩
    · rw [same]
      exact places
    · rw [same]
      exact places.append free nowMs
  | acknowledge ids retry nowMs =>
    apply places.of_seqs _ (acknowledge_nextSeq mb ids retry nowMs)
    exact (acknowledgeLoop_seqs retry nowMs ids [] mb ⟨[], []⟩) ▸ List.Sublist.refl _
  | takeOwedDue nowMs =>
    apply places.of_seqs _ (takeOwedDue_nextSeq mb nowMs)
    exact (takeOwedDue_seqs mb nowMs) ▸ List.Sublist.refl _
  | archiveDone done => exact places.archiveDone done

theorem Places.run (bounds : Bounds) (places : Places place before mb) (inputs : List MailboxInput) :
    Places place before (after bounds mb inputs) :=
  after_invariant (fun _ input placed _ => placed.step bounds input) places (fun _ _ => trivial)

end Place

section Keep
variable {row : NewRow} {place : Nat} {mb : Store}

/-- The mailbox keeps the row a send stored. -/
def Store.Keeps (mb : Store) (row : NewRow) (place : Nat) : Prop :=
  ∃ r, mb.find? row.messageId = some r ∧ r.Keeps row place

/-- A confirmation does not touch a live row's place, state or body. -/
theorem Row.Keeps.done {r : Row} (keeps : r.Keeps row place) (d : Done) :
    ∃ r', doneRow d r = some r' ∧ r'.Keeps row place := by
  have alive : ¬ (r.state = .acknowledged ∧ (d.collision = true ∨ r.version ≤ d.version)) := by
    intro dead
    rw [keeps.live] at dead
    cases dead.1
  unfold doneRow
  rw [if_neg alive]
  split
  · exact ⟨_, rfl, keeps.named, keeps.boxed, keeps.sent, keeps.body, keeps.live, keeps.placed⟩
  · split
    · exact ⟨_, rfl, keeps.named, keeps.boxed, keeps.sent, keeps.body, keeps.live, keeps.placed⟩
    · refine ⟨_, rfl, keeps.named, keeps.boxed, keeps.sent, ?_, keeps.live, keeps.placed⟩
      simp only [keeps.live]
      exact keeps.body

theorem Store.Keeps.archiveDone (keeps : mb.Keeps row place) (done : List Done) :
    (archiveDone mb done).Keeps row place := by
  induction done generalizing mb with
  | nil => exact keeps
  | cons d rest ih =>
    apply ih
    obtain ⟨r, found, held⟩ := keeps
    by_cases aimed : row.messageId = d.messageId
    · obtain ⟨r', moved, held'⟩ := held.done d
      exact ⟨r', by rw [archiveDoneOne_find?, if_pos aimed, found, Option.bind_some, moved], held'⟩
    · exact ⟨r, by rw [archiveDoneOne_find?, if_neg aimed, found], held⟩

theorem Store.Keeps.step (bounds : Bounds) (keeps : mb.Keeps row place) {input : MailboxInput}
    (spared : ¬ input.acknowledges row.messageId) : (mailboxStep bounds mb input).1.Keeps row place := by
  obtain ⟨r, found, held⟩ := keeps
  cases input with
  | insert other retry nowMs =>
    simp only [mailboxStep]
    rcases insert_cases mb other retry nowMs bounds with ⟨outcome, -, same⟩ | ⟨same, free, -⟩
    · rw [same]
      exact ⟨r, found, held⟩
    · have differs : other.messageId ≠ row.messageId := by
        intro taken
        rw [taken, found] at free
        cases free
      rw [same]
      exact ⟨r, by rw [Store.find?_append free, if_neg differs, found], held⟩
  | acknowledge ids retry nowMs =>
    have unnamed : ackRow ids nowMs r = r := if_neg (fun named => spared (held.named ▸ named.1))
    exact ⟨r, by simp only [mailboxStep, acknowledge_find?, found, Option.map_some, unnamed], held⟩
  | takeOwedDue nowMs =>
    have moved := takeOwedDue_find? mb nowMs row.messageId
    rw [found, Option.map_some] at moved
    refine ⟨_, moved, ?_⟩
    split
    · exact ⟨held.named, held.boxed, held.sent, held.body, held.live, held.placed⟩
    · exact held
  | archiveDone done => exact Store.Keeps.archiveDone ⟨r, found, held⟩ done

theorem Store.Keeps.run (bounds : Bounds) (keeps : mb.Keeps row place) {inputs : List MailboxInput}
    (spared : ∀ input ∈ inputs, ¬ input.acknowledges row.messageId) : (after bounds mb inputs).Keeps row place := by
  have step (mb : Store) (input : MailboxInput) (kept : mb.Keeps row place)
      (unnamed : ¬ input.acknowledges row.messageId) : (mailboxStep bounds mb input).1.Keeps row place :=
    kept.step bounds unnamed
  exact after_invariant step keeps spared

end Keep

/-- The live rows of a box among some rows. -/
def boxRows (messageBox : String) (rows : List Row) : List Row :=
  rows.filter (fun r => r.messageBox = messageBox ∧ r.state = .live)

theorem sum_bodyBytes {rows : List Row} (weighed : ∀ r ∈ rows, r.Weighed) (messageBox : String) :
    ((boxRows messageBox rows).map Row.bodyBytes).sum = ((boxRows messageBox rows).map Row.bodyLength).sum := by
  congr 1
  apply List.map_congr_left
  intro r member
  simp only [boxRows, List.mem_filter, decide_eq_true_eq] at member
  obtain ⟨body, has, size⟩ := Option.map_eq_some_iff.mp (weighed r member.1 member.2.2)
  simp [Row.bodyLength, has, size]

/-- A row stored stays live with its body, its sender and its box until an acknowledgment names its id.
What stands before it was stored before it and what stands behind it was stored later, and a listing whose
limit and byte budget reach its place returns it. -/
theorem stored_kept_until_acknowledged (bounds : Bounds) (earlier later : List MailboxInput) (row : NewRow)
    (retry : Bool) (nowMs : Nat)
    (stored : (insert (after bounds Store.empty earlier) row retry nowMs bounds).1 = .stored)
    (unacknowledged : ∀ input ∈ later, ¬ input.acknowledges row.messageId) :
    let mb := after bounds Store.empty earlier
    let final := after bounds Store.empty (earlier ++ .insert row retry nowMs :: later)
    ∃ r ahead behind, final.rows.rows = ahead ++ r :: behind ∧ r.Keeps row mb.nextSeq ∧
      (ahead.map Row.seq).Sublist mb.seqs ∧ (∀ other ∈ behind, mb.nextSeq < other.seq) ∧
      ∀ limit inlineBytes, (boxRows row.messageBox ahead).length < limit →
        ((boxRows row.messageBox ahead).map Row.bodyLength).sum + row.body.utf8ByteSize ≤ inlineBytes →
        r.listed ∈ list final row.messageBox limit inlineBytes := by
  intro mb final
  obtain ⟨free, same⟩ := insert_of_stored stored
  have reached : final = after bounds (mb.append row nowMs) later := by
    simp only [final, after_append, after_cons, mailboxStep]
    rw [same]
  have weighed := (exact_after bounds (earlier ++ .insert row retry nowMs :: later)).weighed
  -- The row and its place are kept from the store on.
  obtain ⟨r, found, keeps⟩ : final.Keeps row mb.nextSeq := by
    rw [reached]
    apply Store.Keeps.run bounds _ unacknowledged
    exact ⟨freshRow mb row nowMs, by rw [Store.find?_append free, if_pos rfl], rfl, rfl, rfl, rfl, rfl, rfl⟩
  have places : Places mb.nextSeq mb.seqs final := by
    rw [reached]
    exact (Places.append ⟨List.filter_sublist, le_rfl⟩ free nowMs).run bounds later
  obtain ⟨ahead, behind, whole, -, -⟩ := Table.find?_split found
  have ordered := final.ordered
  simp only [whole, List.map_append, List.map_cons, List.append_assoc, List.cons_append, List.pairwise_append,
    List.pairwise_cons, List.mem_map, List.mem_cons, List.mem_append] at ordered
  have front (other : Row) (inside : other ∈ ahead) : other.seq < mb.nextSeq :=
    keeps.placed ▸ ordered.2.2 _ ⟨other, inside, rfl⟩ _ (.inl rfl)
  have back (other : Row) (inside : other ∈ behind) : mb.nextSeq < other.seq :=
    keeps.placed ▸ ordered.2.1.1 _ (.inl ⟨other, inside, rfl⟩)
  refine ⟨r, ahead, behind, whole, keeps, ?_, back, fun limit inlineBytes near budget => ?_⟩
  · have kept := places.ahead
    have all : (ahead.map Row.seq).filter (· < mb.nextSeq) = ahead.map Row.seq := by
      apply List.filter_eq_self.mpr
      intro place member
      obtain ⟨other, inside, rfl⟩ := List.mem_map.mp member
      exact decide_eq_true (front other inside)
    simp only [Store.seqs, whole, List.map_append, List.filter_append, all] at kept
    exact (List.sublist_append_left _ _).trans kept
  · have mine (other : Row) (inside : other ∈ ahead) : other.Weighed :=
      weighed _ other ((final.mem_rows_iff other).mp (by rw [whole]; exact List.mem_append_left _ inside))
    have own : r.bodyBytes = row.body.utf8ByteSize := by
      have size := weighed _ r found keeps.live
      rw [keeps.body] at size
      exact (Option.some.inj size).symm
    have rows : liveRows final row.messageBox =
        boxRows row.messageBox ahead ++ r :: boxRows row.messageBox behind := by
      simp only [liveRows, boxRows, whole, List.filter_append]
      rw [List.filter_cons_of_pos (by simp [keeps.boxed, keeps.live])]
    rw [← sum_bodyBytes mine, ← own] at budget
    obtain ⟨rest, kept⟩ := take_withinBudget_reaches Row.bodyBytes inlineBytes limit _ r
      (boxRows row.messageBox behind) near budget
    rw [list, rows, kept]
    simp

/-- Late, repeated and colliding confirmations of a row, with another row stored behind it. -/
def lateConfirmations : List MailboxInput :=
  [.archiveDone [⟨"m", 1, false⟩, ⟨"m", 1, false⟩], .insert ⟨"n", "inbox", "dave", "later"⟩ false 2000,
    .acknowledge ["n"] false 3000, .archiveDone [⟨"m", 0, true⟩, ⟨"n", 2, false⟩], .takeOwedDue 500000]

theorem stored_kept_lateConfirmations :
    ∃ r : Row, r.Keeps ⟨"m", "inbox", "carol", "hello"⟩ 1 ∧
      r.listed ∈ list (after Bounds.ruled Store.empty
        (.insert ⟨"m", "inbox", "carol", "hello"⟩ false 1000 :: lateConfirmations)) "inbox" 100 5 := by
  obtain ⟨r, ahead, behind, -, keeps, none, -, listed⟩ := stored_kept_until_acknowledged Bounds.ruled []
    lateConfirmations ⟨"m", "inbox", "carol", "hello"⟩ false 1000 (by decide +kernel) (by decide)
  have alone : ahead = [] := by simpa [Store.seqs, Store.empty, Table.empty] using none
  subst alone
  exact ⟨r, keeps, listed 100 5 (by decide) (by decide)⟩

end MessageRelay.Mailbox
