import MessageRelay.Relay.World
import MessageRelay.Mailbox.Rows
import MessageRelay.Mailbox.Listing

/-! Which rows an uninterrupted listing returns: D1's live rows the mailbox does not hold, then the
mailbox's, each as far as the limit and the byte budget reach. -/

namespace MessageRelay.Relay
open MessageRelay.Library MessageRelay.Mailbox MessageRelay.Archive MessageRelay.Database

/-- D1's live rows of a recipient's box, all of them. -/
def d1Live (w : Hubs) (recipient messageBox : String) : List MessageDbRow :=
  match findMessageBox w.db recipient messageBox with
  | some boxId => (Database.liveRows w.db recipient boxId).map MessageRow.listed
  | none => []

def mailboxLive (w : Hubs) (recipient messageBox : String) : List MessageDbRow :=
  (Mailbox.liveRows (w.mailboxes recipient) messageBox).map Row.listed

/-- The mailbox holds no row under the listed row's id. -/
def unheld (mb : Mailbox.Store) (r : MessageDbRow) : Bool := r.messageId.all (fun id => (mb.find? id).isNone)

/-- The D1 rows the mailbox does not hide. -/
def visible (w : Hubs) (recipient messageBox : String) : List MessageDbRow :=
  (d1Live w recipient messageBox).filter (unheld (w.mailboxes recipient))

/-- The limit and the byte budget reach a row behind these. -/
def Reached (ahead : List MessageDbRow) (row : MessageDbRow) : Prop :=
  ahead.length < listLimit ∧ (ahead.map bodyLength).sum + bodyLength row ≤ listInlineBytes

/-- The length column agrees with the body. -/
def Sized (r : Row) : Prop := ∀ body, r.body = some body → r.bodyBytes = body.utf8ByteSize

/-- Every row listed by the mailbox has a body and its length. -/
def MeasuredRows (mb : Mailbox.Store) : Prop :=
  ∀ r ∈ mb.rows.rows, r.state = .live → r.body.isSome ∧ Sized r

theorem bodyLength_listed {mb : Mailbox.Store} (measured : MeasuredRows mb) {messageBox : String} {r : Row}
    (member : r ∈ Mailbox.liveRows mb messageBox) : bodyLength r.listed = r.bodyBytes := by
  simp only [Mailbox.liveRows, List.mem_filter, decide_eq_true_eq] at member
  obtain ⟨some, sized⟩ := measured r member.1 member.2.2
  obtain ⟨body, has⟩ := Option.isSome_iff_exists.mp some
  simp [bodyLength, Row.listed, has, sized body has]

/-- A D1 row reached in D1's own order is read with everything ahead of it. -/
theorem listRows_reaches {db : Database.Store} {recipient : String} {boxId : Nat} {ahead behind : List MessageDbRow}
    {row : MessageDbRow}
    (all : (Database.liveRows db recipient boxId).map MessageRow.listed = ahead ++ row :: behind)
    (reached : Reached ahead row) : ∃ rest, listRows db recipient boxId = ahead ++ row :: rest := by
  obtain ⟨first, second, rows, rfl, tail⟩ := List.map_eq_append_iff.mp all
  obtain ⟨r, later, rfl, rfl, rfl⟩ := List.map_eq_cons_iff.mp tail
  obtain ⟨near, budget⟩ := reached
  have size (r : MessageRow) : bodyLength r.listed = r.body.utf8ByteSize := rfl
  simp only [List.length_map, List.map_map, Function.comp_def, size] at near budget
  obtain ⟨rest, kept⟩ := take_withinBudget_reaches (fun r : MessageRow => r.body.utf8ByteSize) listInlineBytes
    listLimit first r later near budget
  exact ⟨rest.map MessageRow.listed, by rw [listRows, rows, kept]; simp⟩

theorem list_reaches {mb : Mailbox.Store} (measured : MeasuredRows mb) {messageBox : String}
    {ahead behind : List MessageDbRow} {row : MessageDbRow}
    (all : (Mailbox.liveRows mb messageBox).map Row.listed = ahead ++ row :: behind)
    (reached : Reached ahead row) :
    ∃ rest, Mailbox.list mb messageBox listLimit listInlineBytes = ahead ++ row :: rest := by
  obtain ⟨first, second, rows, rfl, tail⟩ := List.map_eq_append_iff.mp all
  obtain ⟨r, later, rfl, rfl, rfl⟩ := List.map_eq_cons_iff.mp tail
  have size (r' : Row) (inside : r' ∈ first ++ r :: later) : bodyLength r'.listed = r'.bodyBytes :=
    bodyLength_listed measured (rows ▸ inside)
  obtain ⟨near, budget⟩ := reached
  have sizes : (first.map Row.listed).map bodyLength = first.map Row.bodyBytes := by
    rw [List.map_map]
    exact List.map_congr_left (fun r' inside => size r' (List.mem_append_left _ inside))
  rw [sizes, size r (by simp)] at budget
  rw [List.length_map] at near
  obtain ⟨rest, kept⟩ := take_withinBudget_reaches Row.bodyBytes listInlineBytes listLimit first r later near budget
  exact ⟨rest.map Row.listed, by rw [Mailbox.list, rows, kept]; simp⟩

theorem listRows_sublist (db : Database.Store) (recipient : String) (boxId : Nat) :
    (listRows db recipient boxId).Sublist ((Database.liveRows db recipient boxId).map MessageRow.listed) :=
  ((withinBudget_sublist ..).trans (List.take_sublist ..)).map _

theorem list_sublist (mb : Mailbox.Store) (messageBox : String) (limit inlineBytes : Nat) :
    (Mailbox.list mb messageBox limit inlineBytes).Sublist ((Mailbox.liveRows mb messageBox).map Row.listed) :=
  ((withinBudget_sublist ..).trans (List.take_sublist ..)).map _

/-- No id comes twice: ids are unique in each store, and a visible D1 row's is not the mailbox's. -/
theorem merged_nodup (w : Hubs) (recipient messageBox : String) :
    ((visible w recipient messageBox ++ mailboxLive w recipient messageBox).filterMap
      MessageDbRow.messageId).Nodup := by
  have d1Ids : ((d1Live w recipient messageBox).filterMap MessageDbRow.messageId).Nodup := by
    unfold d1Live
    split
    · rename_i boxId found
      have ids : ((Database.liveRows w.db recipient boxId).map MessageRow.listed).filterMap MessageDbRow.messageId =
          (Database.liveRows w.db recipient boxId).map MessageRow.messageId := by
        simp [List.filterMap_map, Function.comp_def, MessageRow.listed]
      rw [ids]
      exact (List.filter_sublist.map _).nodup w.db.messages.unique
    · simp
  have mailboxIds : (mailboxLive w recipient messageBox).filterMap MessageDbRow.messageId =
      (Mailbox.liveRows (w.mailboxes recipient) messageBox).map Row.messageId := by
    simp [mailboxLive, List.filterMap_map, Function.comp_def, Row.listed]
  rw [List.filterMap_append, List.nodup_append]
  refine ⟨(List.filter_sublist.filterMap _).nodup d1Ids, ?_, ?_⟩
  · rw [mailboxIds]
    exact (List.filter_sublist.map _).nodup (w.mailboxes recipient).rows.unique
  · intro a insideA b insideB same
    subst same
    obtain ⟨d1Row, d1Member, d1Named⟩ := List.mem_filterMap.mp insideA
    have hidden := (List.mem_filter.mp d1Member).2
    rw [mailboxIds] at insideB
    obtain ⟨r, member, named⟩ := List.mem_map.mp insideB
    have held := ((w.mailboxes recipient).mem_rows_iff r).mp (List.mem_of_mem_filter member)
    simp [unheld, d1Named, ← named, held] at hidden

/-- The D1 rows a merge keeps are those the mailbox does not hold. -/
theorem filter_heldIds (mb : Mailbox.Store) (d1 : List MessageDbRow) :
    d1.filter (fun r => r.messageId.all (fun id => decide
      (id ∉ heldIds mb (d1.filterMap MessageDbRow.messageId)))) = d1.filter (unheld mb) := by
  refine List.filter_congr (fun r member => ?_)
  cases named : r.messageId with
  | none => simp [unheld, named]
  | some id =>
    have listed : id ∈ d1.filterMap MessageDbRow.messageId := List.mem_filterMap.mpr ⟨r, member, named⟩
    simp only [unheld, named, Option.all_some, heldIds, List.mem_filter, listed, true_and]
    cases mb.find? id <;> simp

theorem mergeListing_eq (mb : Mailbox.Store) (d1 rows : List MessageDbRow) :
    mergeListing mb d1 rows = mergeLoop listLimit listInlineBytes (d1.filter (unheld mb) ++ rows) [] 0 [] := by
  simp only [mergeListing, merge, filter_heldIds]

/-- A row of the uninterrupted listing's input is listed where the limit and the budget reach it. -/
theorem mem_mergeListing {w : Hubs} {recipient : String} (messageBox : String) {d1 rows : List MessageDbRow}
    (ahead behind : List MessageDbRow) {row : MessageDbRow} (d1Part : d1.Sublist (d1Live w recipient messageBox))
    (mailboxPart : rows.Sublist (mailboxLive w recipient messageBox))
    (here : d1.filter (unheld (w.mailboxes recipient)) ++ rows = ahead ++ row :: behind)
    (reached : Reached ahead row) : row ∈ mergeListing (w.mailboxes recipient) d1 rows := by
  rw [mergeListing_eq, here]
  have part : (ahead ++ row :: behind).Sublist
      (visible w recipient messageBox ++ mailboxLive w recipient messageBox) :=
    here ▸ (d1Part.filter _).append mailboxPart
  refine mem_mergeLoop ((part.filterMap _).nodup (merged_nodup w recipient messageBox)) (by simp) ?_ ?_
  · simpa using reached.1
  · simpa using reached.2

theorem sum_le_of_sublist {a b : List MessageDbRow} (part : a.Sublist b) :
    (a.map bodyLength).sum ≤ (b.map bodyLength).sum :=
  (part.map bodyLength).sum_le_sum (fun _ _ => Nat.zero_le _)

theorem listMessages_sublist (w : Hubs) (recipient messageBox : String) :
    (listMessages w.db recipient messageBox).Sublist (d1Live w recipient messageBox) := by
  unfold listMessages d1Live
  cases findMessageBox w.db recipient messageBox with
  | none => exact List.Sublist.refl _
  | some boxId => exact listRows_sublist ..

/-- A visible D1 row is listed once D1's own order reaches it. -/
theorem database_row_listed {w : Hubs} {recipient messageBox : String} {ahead behind : List MessageDbRow}
    {row : MessageDbRow} (all : d1Live w recipient messageBox = ahead ++ row :: behind)
    (shown : unheld (w.mailboxes recipient) row = true) (reached : Reached ahead row) :
    row ∈ handleList w recipient messageBox := by
  obtain ⟨rest, read⟩ : ∃ rest, listMessages w.db recipient messageBox = ahead ++ row :: rest := by
    unfold d1Live at all
    unfold listMessages
    cases found : findMessageBox w.db recipient messageBox with
    | none =>
      rw [found] at all
      simp at all
    | some boxId =>
      rw [found] at all
      exact listRows_reaches all reached
  refine mem_mergeListing messageBox (ahead.filter (unheld (w.mailboxes recipient)))
    (rest.filter (unheld (w.mailboxes recipient)) ++
      Mailbox.list (w.mailboxes recipient) messageBox listLimit listInlineBytes)
    (listMessages_sublist ..) (list_sublist ..) ?_ ?_
  · rw [read, List.filter_append, List.filter_cons_of_pos shown, List.append_assoc, List.cons_append]
  · have fewer := List.length_filter_le (unheld (w.mailboxes recipient)) ahead
    have lighter := sum_le_of_sublist (List.filter_sublist (l := ahead) (p := unheld (w.mailboxes recipient)))
    have budget := reached.2
    exact ⟨Nat.lt_of_le_of_lt fewer reached.1, by omega⟩

/-- A live mailbox row is listed once the limit and the budget reach it behind the visible D1 rows. -/
theorem mailbox_row_listed {w : Hubs} {recipient messageBox : String}
    (measured : MeasuredRows (w.mailboxes recipient)) {ahead behind : List MessageDbRow} {row : MessageDbRow}
    (all : mailboxLive w recipient messageBox = ahead ++ row :: behind)
    (reached : Reached (visible w recipient messageBox ++ ahead) row) :
    row ∈ handleList w recipient messageBox := by
  simp only [Reached, List.length_append, List.map_append, List.sum_append, visible] at reached
  have own : Reached ahead row := ⟨by omega, by omega⟩
  obtain ⟨rest, read⟩ := list_reaches measured all own
  have part := (listMessages_sublist w recipient messageBox).filter (unheld (w.mailboxes recipient))
  have fewer := part.length_le
  have lighter := sum_le_of_sublist part
  refine mem_mergeListing messageBox
    ((listMessages w.db recipient messageBox).filter (unheld (w.mailboxes recipient)) ++ ahead) rest
    (listMessages_sublist ..) (list_sublist ..) (by rw [read, List.append_assoc]) ?_
  simp only [Reached, List.length_append, List.map_append, List.sum_append]
  exact ⟨by omega, by omega⟩

end MessageRelay.Relay
