import MessageRelay.Mailbox.Machine

/-! The two counters of a mailbox are exact after every run: the live rows and the bytes of their
bodies, inside the bounds. -/

namespace MessageRelay.Mailbox
open MessageRelay.Library

def Store.live (mb : Store) : List Row := mb.rows.rows.filter (fun r => r.state = .live)

/-- The bytes of a row's body. -/
def Row.bodyLength (r : Row) : Nat := r.body.elim 0 String.utf8ByteSize

/-- A row's part in the row counter. -/
def Row.countedRow (r : Row) : Int := if r.state = .live then 1 else 0

/-- A row's part in the byte counter. -/
def Row.countedBytes (r : Row) : Int := if r.state = .live then r.bodyLength else 0

/-- A live row has its body, and its size is recorded. -/
def Row.Weighed (r : Row) : Prop := r.state = .live → r.body.map String.utf8ByteSize = some r.bodyBytes

/-- The counters are exact and inside the bounds. -/
structure Exact (bounds : Bounds) (mb : Store) : Prop where
  rows : mb.rowsHeld = (mb.rows.rows.map Row.countedRow).sum
  bytes : mb.bytesHeld = (mb.rows.rows.map Row.countedBytes).sum
  weighed : ∀ id r, mb.find? id = some r → r.Weighed
  rowsBound : mb.rowsHeld ≤ bounds.rows
  bytesBound : mb.bytesHeld ≤ bounds.bytes

theorem Row.countedRow_nonneg (r : Row) : 0 ≤ r.countedRow := by
  unfold countedRow
  split <;> decide

theorem Row.countedBytes_nonneg (r : Row) : 0 ≤ r.countedBytes := by
  unfold countedBytes
  split
  · exact Int.natCast_nonneg _
  · exact le_rfl

/-- The bytes of a weighed live row. -/
theorem Row.Weighed.countedBytes {r : Row} (weighed : r.Weighed) (live : r.state = .live) :
    r.countedBytes = r.bodyBytes := by
  obtain ⟨body, has, size⟩ := Option.map_eq_some_iff.mp (weighed live)
  simp [Row.countedBytes, Row.bodyLength, live, has, size]

theorem Store.modify_absent {mb : Store} {id : String} (absent : mb.find? id = none) (f : Row → Row)
    (keepsId : ∀ r, (f r).messageId = r.messageId) (keepsSeq : ∀ r, (f r).seq = r.seq) :
    mb.modify id f keepsId keepsSeq = mb := by
  have still : mb.rows.modify id f keepsId = mb.rows := Table.modify_absent absent f keepsId
  simp only [Store.modify, still]

section Step
variable {bounds : Bounds} {mb : Store} (exact : Exact bounds mb)
include exact

theorem Exact.nonneg : 0 ≤ mb.rowsHeld ∧ 0 ≤ mb.bytesHeld := by
  rw [exact.rows, exact.bytes]
  constructor
  · apply List.sum_nonneg
    intro amount inside
    obtain ⟨r, -, rfl⟩ := List.mem_map.mp inside
    exact r.countedRow_nonneg
  · apply List.sum_nonneg
    intro amount inside
    obtain ⟨r, -, rfl⟩ := List.mem_map.mp inside
    exact r.countedBytes_nonneg

/-- A rewrite that moves no counted amount. -/
theorem Exact.modify {id : String} {f : Row → Row} (keepsId : ∀ r, (f r).messageId = r.messageId)
    (keepsSeq : ∀ r, (f r).seq = r.seq) {r : Row} (found : mb.find? id = some r)
    (sameRow : (f r).countedRow = r.countedRow) (sameBytes : (f r).countedBytes = r.countedBytes)
    (weighed : (f r).Weighed) : Exact bounds (mb.modify id f keepsId keepsSeq) := by
  have rows := Table.sum_modify Row.countedRow found f keepsId
  have bytes := Table.sum_modify Row.countedBytes found f keepsId
  refine ⟨?_, ?_, fun k r' there => ?_, exact.rowsBound, exact.bytesBound⟩
  · apply exact.rows.trans
    change _ = ((mb.rows.modify id f keepsId).rows.map Row.countedRow).sum
    omega
  · apply exact.bytes.trans
    change _ = ((mb.rows.modify id f keepsId).rows.map Row.countedBytes).sum
    omega
  · rw [Store.find?_modify] at there
    split at there
    · rename_i same
      rw [same, found] at there
      exact Option.some.inj there ▸ weighed
    · exact exact.weighed k r' there

/-- A row is deleted only once it counts for nothing. -/
theorem Exact.delete {id : String} {r : Row} (found : mb.find? id = some r) (dead : r.state = .acknowledged) :
    Exact bounds (mb.delete id) := by
  have rows := Table.sum_keep Row.countedRow found
  have bytes := Table.sum_keep Row.countedBytes found
  have noRow : r.countedRow = 0 := by simp [Row.countedRow, dead]
  have noBytes : r.countedBytes = 0 := by simp [Row.countedBytes, dead]
  refine ⟨?_, ?_, fun k r' there => ?_, exact.rowsBound, exact.bytesBound⟩
  · apply exact.rows.trans
    change _ = ((mb.rows.keep _).rows.map Row.countedRow).sum
    omega
  · apply exact.bytes.trans
    change _ = ((mb.rows.keep _).rows.map Row.countedBytes).sum
    omega
  · rw [Store.find?_delete] at there
    split at there
    · cases there
    · exact exact.weighed k r' there

theorem Exact.acknowledgeRow {id : String} {r : Row} (found : mb.find? id = some r) (live : r.state = .live)
    (nowMs : Nat) : Exact bounds (acknowledgeRow mb id r.bodyBytes nowMs) := by
  have rows := Table.sum_modify Row.countedRow found (fun r => r.acknowledge nowMs) (fun _ => rfl)
  have bytes := Table.sum_modify Row.countedBytes found (fun r => r.acknowledge nowMs) (fun _ => rfl)
  have oneRow : r.countedRow = 1 := by simp [Row.countedRow, live]
  have itsBytes := (exact.weighed id r found).countedBytes live
  have noRow : (r.acknowledge nowMs).countedRow = 0 := by simp [Row.countedRow, Row.acknowledge]
  have noBytes : (r.acknowledge nowMs).countedBytes = 0 := by simp [Row.countedBytes, Row.acknowledge]
  have heldRows := exact.rows
  have heldBytes := exact.bytes
  refine ⟨?_, ?_, fun k r' there => ?_, ?_, ?_⟩
  · change mb.rowsHeld - 1 =
      ((mb.rows.modify id (fun r => r.acknowledge nowMs) (fun _ => rfl)).rows.map Row.countedRow).sum
    omega
  · change mb.bytesHeld - r.bodyBytes =
      ((mb.rows.modify id (fun r => r.acknowledge nowMs) (fun _ => rfl)).rows.map Row.countedBytes).sum
    omega
  · have moved : (if k = id then (mb.find? k).map (fun r => r.acknowledge nowMs) else mb.find? k) = some r' :=
      (Store.find?_modify mb id (fun r => r.acknowledge nowMs) (fun _ => rfl) (fun _ => rfl) k).symm.trans there
    split at moved
    · obtain ⟨held, -, rfl⟩ := Option.map_eq_some_iff.mp moved
      intro still
      cases still
    · exact exact.weighed k r' moved
  · have bound := exact.rowsBound
    change mb.rowsHeld - 1 ≤ bounds.rows
    omega
  · have bound := exact.bytesBound
    change mb.bytesHeld - r.bodyBytes ≤ bounds.bytes
    omega

theorem Exact.append {row : NewRow} (free : mb.find? row.messageId = none) (nowMs : Nat)
    (roomRows : mb.rowsHeld + 1 ≤ bounds.rows) (roomBytes : mb.bytesHeld + row.body.utf8ByteSize ≤ bounds.bytes) :
    Exact bounds (mb.append row nowMs) := by
  have rows := Table.sum_insertIgnore (r := freshRow mb row nowMs) Row.countedRow free
  have bytes := Table.sum_insertIgnore (r := freshRow mb row nowMs) Row.countedBytes free
  refine ⟨?_, ?_, fun k r' there => ?_, roomRows, roomBytes⟩
  · change mb.rowsHeld + 1 = ((mb.rows.insertIgnore (freshRow mb row nowMs)).rows.map Row.countedRow).sum
    rw [rows, ← exact.rows]
    rfl
  · change mb.bytesHeld + row.body.utf8ByteSize =
      ((mb.rows.insertIgnore (freshRow mb row nowMs)).rows.map Row.countedBytes).sum
    rw [bytes, ← exact.bytes]
    rfl
  · rw [Store.find?_append free] at there
    split at there
    · cases there
      exact fun _ => rfl
    · exact exact.weighed k r' there

end Step

/-- A store happens only where the id is free and both bounds leave room. -/
theorem Exact.insert {bounds : Bounds} {mb : Store} (exact : Exact bounds mb) (row : NewRow) (retry : Bool)
    (nowMs : Nat) : Exact bounds (insert mb row retry nowMs bounds).2 := by
  have positive := exact.nonneg
  rcases insert_cases mb row retry nowMs bounds with ⟨outcome, -, same⟩ | ⟨same, free, roomRows, roomBytes⟩
  · rw [same]
    exact exact
  · rw [same]
    apply exact.append free <;> omega

theorem Exact.acknowledge {bounds : Bounds} {mb : Store} (exact : Exact bounds mb) (ids : List String)
    (retry : Bool) (nowMs : Nat) : Exact bounds (acknowledge mb ids retry nowMs).2 := by
  have loop (seen : List String) (mb : Store) (out : Acked) (exact : Exact bounds mb) :
      Exact bounds (acknowledgeLoop retry nowMs ids seen mb out).2 := by
    induction ids generalizing seen mb out with
    | nil => exact exact
    | cons id rest ih =>
      unfold acknowledgeLoop
      split
      · exact ih _ _ _ exact
      · split
        · rename_i r found
          split
          · rename_i live
            exact ih _ _ _ (exact.acknowledgeRow found live nowMs)
          · split
            · exact ih _ _ _ exact
            · exact ih _ _ _ exact
        · exact ih _ _ _ exact
  exact loop [] mb ⟨[], []⟩ exact

theorem Exact.takeOwedDue {bounds : Bounds} {mb : Store} (exact : Exact bounds mb) (nowMs : Nat) :
    Exact bounds (takeOwedDue mb nowMs).2 := by
  have fold (due : List Row) (mb : Store) (exact : Exact bounds mb) :
      Exact bounds (due.foldl (renewEnqueued nowMs) mb) := by
    induction due generalizing mb with
    | nil => exact exact
    | cons d rest ih =>
      apply ih
      cases found : mb.find? d.messageId with
      | none =>
        have still : renewEnqueued nowMs mb d = mb := Store.modify_absent found _ _ _
        rwa [still]
      | some r => exact exact.modify _ _ found rfl rfl (exact.weighed _ r found)
  exact fold (owedDue mb nowMs) mb exact

theorem Exact.archiveDone {bounds : Bounds} {mb : Store} (exact : Exact bounds mb) (done : List Done) :
    Exact bounds (archiveDone mb done) := by
  induction done generalizing mb with
  | nil => exact exact
  | cons d rest ih =>
    apply ih
    unfold archiveDoneOne
    split
    · exact exact
    · rename_i r found
      have weighed := exact.weighed _ r found
      split
      · rename_i gone
        exact exact.delete found gone.1
      · split
        · exact exact.modify _ _ found rfl rfl weighed
        · split
          · exact exact.modify _ _ found rfl rfl weighed
          · apply exact.modify _ _ found rfl
            · cases state : r.state <;> simp [Row.countedBytes, Row.bodyLength, state]
            · intro live
              change r.state = .live at live
              simpa [live] using weighed live

theorem Exact.step {bounds : Bounds} {mb : Store} (exact : Exact bounds mb) (input : MailboxInput) :
    Exact bounds (mailboxStep bounds mb input).1 := by
  cases input with
  | insert row retry nowMs => exact exact.insert row retry nowMs
  | acknowledge ids retry nowMs => exact exact.acknowledge ids retry nowMs
  | takeOwedDue nowMs => exact exact.takeOwedDue nowMs
  | archiveDone done => exact exact.archiveDone done

theorem Store.sum_countedRow (rows : List Row) :
    (rows.map Row.countedRow).sum = (rows.filter (fun r => r.state = .live)).length := by
  induction rows with
  | nil => rfl
  | cons r rest ih =>
    by_cases live : r.state = .live
    · simp [Row.countedRow, live, ih, add_comm]
    · simp [Row.countedRow, live, ih]

theorem Store.sum_countedBytes (rows : List Row) :
    (rows.map Row.countedBytes).sum = ((rows.filter (fun r => r.state = .live)).map Row.bodyLength).sum := by
  induction rows with
  | nil => rfl
  | cons r rest ih =>
    by_cases live : r.state = .live
    · simp [Row.countedBytes, live, ih]
    · simp [Row.countedBytes, live, ih]

theorem exact_empty (bounds : Bounds) : Exact bounds Store.empty :=
  ⟨rfl, rfl, fun _ _ found => (by cases found), Int.natCast_nonneg _, Int.natCast_nonneg _⟩

theorem exact_after (bounds : Bounds) (inputs : List MailboxInput) :
    Exact bounds (after bounds Store.empty inputs) :=
  after_invariant (fun _ input exact _ => exact.step input) (exact_empty bounds) (fun _ _ => trivial)

/-- After every run the counters are the live rows and the bytes of their bodies, neither is negative,
both are inside the bounds, and no id is held twice. -/
theorem counters_exact (bounds : Bounds) (inputs : List MailboxInput) :
    let mb := after bounds Store.empty inputs
    mb.rowsHeld = mb.live.length ∧ mb.bytesHeld = (mb.live.map Row.bodyLength).sum ∧
      0 ≤ mb.rowsHeld ∧ 0 ≤ mb.bytesHeld ∧ mb.rowsHeld ≤ bounds.rows ∧ mb.bytesHeld ≤ bounds.bytes ∧
      (mb.rows.rows.map Row.messageId).Nodup := by
  intro mb
  have exact : Exact bounds mb := exact_after bounds inputs
  have rows := exact.rows.trans (Store.sum_countedRow mb.rows.rows)
  have bytes := exact.bytes.trans (Store.sum_countedBytes mb.rows.rows)
  exact ⟨rows, bytes, exact.nonneg.1, exact.nonneg.2, exact.rowsBound, exact.bytesBound, mb.rows.unique⟩

end MessageRelay.Mailbox
