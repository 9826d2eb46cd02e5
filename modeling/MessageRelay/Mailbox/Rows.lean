import MessageRelay.Mailbox.Store

/-! What each mailbox operation does to the row under an id, one equation per operation. -/

namespace MessageRelay.Mailbox
open MessageRelay.Library MessageRelay.Archive

namespace Store

theorem mem_rows_iff (mb : Store) (r : Row) : r ∈ mb.rows.rows ↔ mb.find? r.messageId = some r := by
  rw [find?, Table.find?_eq_some]
  exact ⟨fun member => ⟨member, rfl⟩, And.left⟩

theorem messageId_of_find? {mb : Store} {id : String} {r : Row} (found : mb.find? id = some r) :
    r.messageId = id := Table.key_of_find? found

@[simp] theorem find?_empty (id : String) : Store.empty.find? id = none := rfl

@[simp] theorem find?_modify (mb : Store) (id : String) (f : Row → Row)
    (keepsId : ∀ r, (f r).messageId = r.messageId) (keepsSeq : ∀ r, (f r).seq = r.seq) (k : String) :
    (mb.modify id f keepsId keepsSeq).find? k = if k = id then (mb.find? k).map f else mb.find? k :=
  Table.find?_modify mb.rows id f keepsId k

@[simp] theorem find?_delete (mb : Store) (id k : String) :
    (mb.delete id).find? k = if k = id then none else mb.find? k := by
  rw [find?, delete, Table.find?_keep]
  cases found : mb.rows.find? k with
  | none => simp [find?, found]
  | some r =>
    have named := Table.key_of_find? found
    by_cases same : k = id <;> simp [find?, found, named, same]

theorem find?_append {mb : Store} {row : NewRow} (free : mb.find? row.messageId = none) (nowMs : Nat)
    (k : String) :
    (mb.append row nowMs).find? k = if row.messageId = k then some (freshRow mb row nowMs) else mb.find? k := by
  simp only [find?, append, Table.find?_insertIgnore]
  change (if row.messageId = k then _ else _) = _
  by_cases same : row.messageId = k
  · subst same
    have absent : mb.rows.find? row.messageId = none := free
    simp [absent]
  · simp [same]

end Store

/-- A store happens only where the id is free. -/
theorem insert_stored {mb mb' : Store} {row : NewRow} {retry : Bool} {nowMs : Nat} {bounds : Bounds}
    (done : insert mb row retry nowMs bounds = (.stored, mb')) :
    mb.find? row.messageId = none ∧ mb' = mb.append row nowMs := by
  unfold insert at done
  split at done
  · simp only [Prod.mk.injEq] at done
    split at done <;> cases done.1
  · rename_i free
    simp only at done
    split at done
    · simp at done
    · split at done
      · simp at done
      · exact ⟨free, (Prod.mk.inj done).2.symm⟩

/-- The acknowledgment of one row under a list of ids. -/
def ackRow (ids : List String) (nowMs : Nat) (r : Row) : Row :=
  if r.messageId ∈ ids ∧ r.state = .live then r.acknowledge nowMs else r

theorem acknowledgeLoop_find? (retry : Bool) (nowMs : Nat) (ids seen : List String) (mb : Store) (out : Acked)
    (k : String) :
    (acknowledgeLoop retry nowMs ids seen mb out).2.find? k =
      (mb.find? k).map (ackRow (ids.filter (· ∉ seen)) nowMs) := by
  induction ids generalizing seen mb out with
  | nil =>
    have idle : ackRow [] nowMs = fun r => r := by
      funext r
      simp [ackRow]
    simp [acknowledgeLoop, idle]
  | cons id rest ih =>
    unfold acknowledgeLoop
    by_cases before : id ∈ seen
    · rw [if_pos before, ih]
      simp [before]
    · rw [if_neg before]
      -- Once `id` is seen, the rest of the list acts on the other ids only.
      have rest_eq (r : Row) (other : r.messageId ≠ id) :
          ackRow (rest.filter (· ∉ id :: seen)) nowMs r = ackRow ((id :: rest).filter (· ∉ seen)) nowMs r := by
        simp [ackRow, before, other]
      have rest_own (r : Row) (own : r.messageId = id) : ackRow (rest.filter (· ∉ id :: seen)) nowMs r = r := by
        simp [ackRow, own]
      have settled (held : Option Row) (found : mb.find? k = held)
          (dead : ∀ r, held = some r → k = id → r.state ≠ .live) :
          held.map (ackRow (rest.filter (· ∉ id :: seen)) nowMs) =
            held.map (ackRow ((id :: rest).filter (· ∉ seen)) nowMs) := by
        cases held with
        | none => rfl
        | some r =>
          have named := Store.messageId_of_find? found
          by_cases same : k = id
          · simp [ackRow, dead r rfl same]
          · exact congrArg some (rest_eq r (named ▸ same))
      cases found : mb.find? id with
      | none =>
        simp only
        rw [ih]
        exact settled _ rfl (fun r there same => by rw [same, found] at there; cases there)
      | some r =>
        simp only
        by_cases live : r.state = .live
        · rw [if_pos live, ih]
          have moved (k' : String) : (acknowledgeRow mb id r.bodyBytes nowMs).find? k' =
              if k' = id then (mb.find? k').map (fun r => r.acknowledge nowMs) else mb.find? k' :=
            Store.find?_modify mb id (fun r => r.acknowledge nowMs) (fun _ => rfl) (fun _ => rfl) k'
          rw [moved]
          by_cases same : k = id
          · subst same
            have named := Store.messageId_of_find? found
            have done := rest_own (r.acknowledge nowMs) named
            have acked : ackRow ((k :: rest).filter (· ∉ seen)) nowMs r = r.acknowledge nowMs := by
              simp [ackRow, named, before, live]
            rw [if_pos rfl, found, Option.map_some, Option.map_some, Option.map_some, done, acked]
          · rw [if_neg same]
            exact settled _ rfl (fun _ _ own => absurd own same)
        · rw [if_neg live]
          have dead (r' : Row) (there : mb.find? k = some r') (same : k = id) : r'.state ≠ .live := by
            rw [same, found] at there
            exact Option.some.inj there ▸ live
          split
          · rw [ih]
            exact settled _ rfl dead
          · rw [ih]
            exact settled _ rfl dead

/-- An acknowledgment moves exactly the live rows it names. -/
theorem acknowledge_find? (mb : Store) (ids : List String) (retry : Bool) (nowMs : Nat) (k : String) :
    (acknowledge mb ids retry nowMs).2.find? k = (mb.find? k).map (ackRow ids nowMs) := by
  rw [acknowledge, acknowledgeLoop_find?]
  simp

/-- What is missing stays missing. -/
theorem acknowledgeLoop_missing_of_mem {retry : Bool} {nowMs : Nat} {ids seen : List String} {mb : Store} {out : Acked}
    {id : String} (known : id ∈ out.missing) : id ∈ (acknowledgeLoop retry nowMs ids seen mb out).1.missing := by
  induction ids generalizing seen mb out with
  | nil => exact known
  | cons next rest ih =>
    unfold acknowledgeLoop
    split
    · exact ih known
    · split
      · split
        · exact ih known
        · split
          · exact ih known
          · exact ih (List.mem_append_left _ known)
      · exact ih (List.mem_append_left _ known)

theorem acknowledgeLoop_missing {retry : Bool} {nowMs : Nat} {ids seen : List String} {mb : Store} {out : Acked}
    {id : String} (named : id ∈ ids) (new : id ∉ seen) (absent : mb.find? id = none) :
    id ∈ (acknowledgeLoop retry nowMs ids seen mb out).1.missing := by
  induction ids generalizing seen mb out with
  | nil => cases named
  | cons next rest ih =>
    unfold acknowledgeLoop
    by_cases same : next = id
    · subst same
      rw [if_neg new]
      simp only [absent]
      exact acknowledgeLoop_missing_of_mem (List.mem_append_right _ (List.mem_singleton.mpr rfl))
    · have later : id ∈ rest := (List.mem_cons.mp named).resolve_left (Ne.symm same)
      have unseen : id ∉ next :: seen := by
        simp only [List.mem_cons, not_or]
        exact ⟨Ne.symm same, new⟩
      split
      · exact ih later new absent
      · split
        · split
          · apply ih later unseen
            have moved := Store.find?_modify mb next (fun r => r.acknowledge nowMs) (fun _ => rfl) (fun _ => rfl) id
            exact moved.trans ((if_neg (Ne.symm same)).trans absent)
          · split
            · exact ih later unseen absent
            · exact ih later unseen absent
        · exact ih later unseen absent

/-- An id named and not in the mailbox is missing. -/
theorem mem_missing {mb : Store} {ids : List String} {id : String} (named : id ∈ ids) (absent : mb.find? id = none)
    (retry : Bool) (nowMs : Nat) : id ∈ (acknowledge mb ids retry nowMs).1.missing :=
  acknowledgeLoop_missing named (List.not_mem_nil) absent

theorem renewEnqueued_find? (nowMs : Nat) (due : List Row) (mb : Store) (k : String) :
    (due.foldl (renewEnqueued nowMs) mb).find? k = (mb.find? k).map (fun r =>
      if ∃ d ∈ due, d.messageId = k then { r with enqueuedAt := some nowMs } else r) := by
  induction due generalizing mb with
  | nil => simp
  | cons d rest ih =>
    rw [List.foldl_cons, ih]
    simp only [renewEnqueued, Store.find?_modify]
    by_cases own : k = d.messageId
    · subst own
      cases mb.find? d.messageId <;> simp
    · have other : d.messageId ≠ k := Ne.symm own
      simp [own, other]

/-- The replay renews enqueue times and nothing else. -/
theorem takeOwedDue_find? (mb : Store) (nowMs : Nat) (k : String) :
    (takeOwedDue mb nowMs).2.find? k = (mb.find? k).map (fun r =>
      if ∃ d ∈ owedDue mb nowMs, d.messageId = k then { r with enqueuedAt := some nowMs } else r) :=
  renewEnqueued_find? nowMs (owedDue mb nowMs) mb k

theorem mem_owedDue {mb : Store} {nowMs : Nat} {r : Row} (member : r ∈ owedDue mb nowMs) :
    mb.find? r.messageId = some r := by
  have sorted := List.mem_of_mem_take member
  rw [List.mem_insertionSort] at sorted
  exact (mb.mem_rows_iff r).mp (List.mem_of_mem_filter sorted)

/-- What one confirmation makes of the row it names. -/
def doneRow (d : Done) (r : Row) : Option Row :=
  if r.state = .acknowledged ∧ (d.collision ∨ r.version ≤ d.version) then none
  else if d.collision then some { r with owed := false, collision := true }
  else if r.version ≤ d.version then some { r with archivedVersion := d.version, owed := false }
  else some { r with
    archivedVersion := max r.archivedVersion d.version
    body := if r.state = .acknowledged then none else r.body }

theorem archiveDoneOne_find? (mb : Store) (d : Done) (k : String) :
    (archiveDoneOne mb d).find? k = if k = d.messageId then (mb.find? k).bind (doneRow d) else mb.find? k := by
  unfold archiveDoneOne
  cases found : mb.find? d.messageId with
  | none =>
    by_cases same : k = d.messageId
    · subst same
      simp [found]
    · simp [same]
  | some r =>
    simp only
    by_cases same : k = d.messageId
    · subst same
      rw [if_pos rfl, found, Option.bind_some]
      unfold doneRow
      split
      · simp
      · split
        · simp [found]
        · split <;> simp [found]
    · rw [if_neg same]
      split
      · simp [same]
      · split
        · simp [same]
        · split <;> simp [same]

theorem archiveDoneOne_nextSeq (mb : Store) (d : Done) : (archiveDoneOne mb d).nextSeq = mb.nextSeq := by
  unfold archiveDoneOne
  split
  · rfl
  · split
    · rfl
    · split
      · rfl
      · split <;> rfl

theorem acknowledge_nextSeq (mb : Store) (ids : List String) (retry : Bool) (nowMs : Nat) :
    (acknowledge mb ids retry nowMs).2.nextSeq = mb.nextSeq := by
  have loop (seen : List String) (mb : Store) (out : Acked) :
      (acknowledgeLoop retry nowMs ids seen mb out).2.nextSeq = mb.nextSeq := by
    induction ids generalizing seen mb out with
    | nil => rfl
    | cons id rest ih =>
      unfold acknowledgeLoop
      split
      · exact ih ..
      · split
        · split
          · exact ih ..
          · split <;> exact ih ..
        · exact ih ..
  exact loop [] mb ⟨[], []⟩

theorem takeOwedDue_nextSeq (mb : Store) (nowMs : Nat) : (takeOwedDue mb nowMs).2.nextSeq = mb.nextSeq := by
  have fold (due : List Row) (mb : Store) : (due.foldl (renewEnqueued nowMs) mb).nextSeq = mb.nextSeq := by
    induction due generalizing mb with
    | nil => rfl
    | cons d rest ih => exact ih (renewEnqueued nowMs mb d)
  exact fold (owedDue mb nowMs) mb

theorem mem_chunks {α : Type} (size : Nat) (positive : 0 < size) (items : List α) (x : α) :
    (∃ chunk ∈ chunks size items, x ∈ chunk) ↔ x ∈ items := by
  simp only [chunks, List.mem_map, List.mem_range]
  constructor
  · rintro ⟨_, ⟨i, -, rfl⟩, member⟩
    exact List.mem_of_mem_drop (List.mem_of_mem_take member)
  · intro member
    obtain ⟨k, inside, rfl⟩ := List.mem_iff_getElem.mp member
    refine ⟨_, ⟨k / size, ?_, rfl⟩, ?_⟩
    · rw [Nat.div_lt_iff_lt_mul positive]
      have whole := Nat.div_add_mod (items.length + size - 1) size
      have part := Nat.mod_lt (items.length + size - 1) positive
      rw [Nat.mul_comm] at whole
      omega
    · have split := Nat.div_add_mod k size
      have part := Nat.mod_lt k positive
      rw [Nat.mul_comm] at split
      refine List.mem_iff_getElem.mpr ⟨k % size, ?_, ?_⟩
      · simp only [List.length_take, List.length_drop]
        omega
      · simp only [List.getElem_take, List.getElem_drop]
        congr 1

/-- The rows read for the archive are the rows held under the ids. -/
theorem mem_archiveRows {mb : Store} {ids : List String} {row : ArchiveRow} :
    row ∈ archiveRows mb ids ↔ ∃ r, mb.find? r.messageId = some r ∧ r.messageId ∈ ids ∧ archiveRow r = row := by
  simp only [archiveRows, List.mem_flatMap, List.mem_map, List.mem_filter, decide_eq_true_eq]
  constructor
  · rintro ⟨chunk, inside, r, ⟨member, named⟩, rfl⟩
    exact ⟨r, (mb.mem_rows_iff r).mp member, (mem_chunks idsPerStatement (by decide) ids _).mp ⟨chunk, inside, named⟩, rfl⟩
  · rintro ⟨r, found, named, rfl⟩
    obtain ⟨chunk, inside, member⟩ := (mem_chunks idsPerStatement (by decide) ids _).mpr named
    exact ⟨chunk, inside, r, ⟨(mb.mem_rows_iff r).mpr found, member⟩, rfl⟩

/-- The message handed over names its row and its version, with the body inside or left in the hub. -/
theorem archiveMessage_cases (row : ArchiveRow) (recipient : String) :
    archiveMessage row recipient = inlineMessage row recipient ∨
      row.body.isSome ∧
        archiveMessage row recipient = { inlineMessage row recipient with body := none, bodyInHub := true } := by
  by_cases long : archiveInlineMax < (inlineMessage row recipient).jsonLength ∧ row.body.isSome
  · rw [archiveMessage, if_pos long]
    exact .inr ⟨long.2, rfl⟩
  · rw [archiveMessage, if_neg long]
    exact .inl rfl

theorem archiveMessage_named (row : ArchiveRow) (recipient : String) :
    (archiveMessage row recipient).recipient = recipient ∧
      (archiveMessage row recipient).messageId = row.messageId ∧
      (archiveMessage row recipient).version = row.version := by
  rcases archiveMessage_cases row recipient with inside | ⟨-, left⟩
  · rw [inside]
    exact ⟨rfl, rfl, rfl⟩
  · rw [left]
    exact ⟨rfl, rfl, rfl⟩

end MessageRelay.Mailbox
