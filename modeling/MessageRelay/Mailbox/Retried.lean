import MessageRelay.Mailbox.Machine

/-! A hop repeated after its answer was lost. The repeat is recognised by the row the first attempt
left, so what falls between the attempts matters: exactly which acknowledgments and confirmations
leave the repeat answering as the first attempt did. -/

namespace MessageRelay.Mailbox
open MessageRelay.Library

/-- What the sender's hop is answered. -/
inductive HopAnswer where
  | stored
  | duplicate
  | full (bound : Full)
  deriving DecidableEq, Repr

def hopAnswer : Inserted → HopAnswer
  | .stored | .retried => .stored
  | .duplicate => .duplicate
  | .full bound => .full bound

def MailboxInput.stores : MailboxInput → Bool
  | .insert .. => true
  | _ => false

/-- What happens to one row between the attempts. -/
inductive RowEvent where
  | acknowledged
  | confirmed (d : Done)
  deriving DecidableEq, Repr

def MailboxInput.eventsOf (id : String) : MailboxInput → List RowEvent
  | .acknowledge ids _ _ => if id ∈ ids then [.acknowledged] else []
  | .archiveDone done => (done.filter (fun d => d.messageId = id)).map .confirmed
  | _ => []

def rowEvents (id : String) (gap : List MailboxInput) : List RowEvent := gap.flatMap (·.eventsOf id)

/-- The confirmation leaves a live row unarchived. -/
def Done.idle (d : Done) : Bool := d.collision || d.version = 0

/-- An earlier and a later event that leave the repeat its row: no confirmation of the archive's before an
acknowledgment, and none of any kind after it. -/
def Compatible : RowEvent → RowEvent → Bool
  | .confirmed d, .acknowledged => d.idle
  | .acknowledged, .confirmed _ => false
  | _, _ => true

/-- Where a stored row stands. -/
inductive Life where
  | fresh
  | archived
  | acknowledged
  | stripped
  | gone
  deriving DecidableEq, Repr

theorem doneRow_acknowledged {r : Row} (dead : r.state = .acknowledged) (d : Done) :
    doneRow d r = if d.collision || decide (r.version ≤ d.version) then none
      else some { r with archivedVersion := max r.archivedVersion d.version, body := none } := by
  unfold doneRow
  by_cases deletes : d.collision = true ∨ r.version ≤ d.version
  · rw [if_pos ⟨dead, deletes⟩, if_pos (by simpa using deletes)]
  · have kept : ¬ (r.state = .acknowledged ∧ (d.collision = true ∨ r.version ≤ d.version)) :=
      fun both => deletes both.2
    have stays : ¬ (d.collision || decide (r.version ≤ d.version)) = true := by simpa using deletes
    rw [not_or] at deletes
    rw [if_neg kept, if_neg deletes.1, if_neg deletes.2, if_neg stays, if_pos dead]

namespace Life

def next : Life → RowEvent → Life
  | .fresh, .acknowledged => .acknowledged
  | .fresh, .confirmed d => if d.idle then .fresh else .archived
  | .archived, .acknowledged => .stripped
  | .archived, .confirmed _ => .archived
  | .acknowledged, .acknowledged => .acknowledged
  | .stripped, .acknowledged => .stripped
  | .acknowledged, .confirmed d | .stripped, .confirmed d =>
    if d.collision || 2 ≤ d.version then .gone else .stripped
  | .gone, _ => .gone

/-- The row is there with its body. -/
def whole : Life → Bool
  | .fresh | .archived | .acknowledged => true
  | .stripped | .gone => false

/-- The row under the id stands there. -/
def Describes (row : NewRow) (life : Life) (r : Row) : Prop :=
  r.sender = row.sender ∧ r.messageBox = row.messageBox ∧
    match life with
    | .fresh => r.body = some row.body ∧ r.state = .live ∧ r.version = 1 ∧ r.archivedVersion = 0
    | .archived => r.body = some row.body ∧ r.state = .live ∧ r.version = 1 ∧ 0 < r.archivedVersion
    | .acknowledged => r.body = some row.body ∧ r.state = .acknowledged ∧ r.version = 2
    | .stripped => r.body = none ∧ r.state = .acknowledged ∧ r.version = 2
    | .gone => False

def Of (row : NewRow) (life : Life) : Option Row → Prop
  | some r => life.Describes row r
  | none => life = .gone

theorem whole_foldl_dead (events : List RowEvent) (life : Life) (dead : life.whole = false) :
    (events.foldl next life).whole = false := by
  induction events generalizing life with
  | nil => exact dead
  | cons event rest ih =>
    apply ih
    cases life with
    | fresh | archived | acknowledged => cases dead
    | gone => rfl
    | stripped =>
      cases event with
      | acknowledged => rfl
      | confirmed d =>
        simp only [next]
        split <;> rfl

theorem whole_foldl_acknowledged (events : List RowEvent) :
    (events.foldl next .acknowledged).whole = true ↔ ∀ event ∈ events, Compatible .acknowledged event := by
  induction events with
  | nil => simp [whole]
  | cons event rest ih =>
    cases event with
    | acknowledged => simpa [next, Compatible] using ih
    | confirmed d =>
      have dead : (rest.foldl next (next .acknowledged (.confirmed d))).whole = false := by
        apply whole_foldl_dead
        simp only [next]
        split <;> rfl
      simp [dead, Compatible]

theorem whole_foldl_archived (events : List RowEvent) :
    (events.foldl next .archived).whole = true ↔ ∀ event ∈ events, event ≠ .acknowledged := by
  induction events with
  | nil => simp [whole]
  | cons event rest ih =>
    cases event with
    | acknowledged => simp [next, whole_foldl_dead rest .stripped rfl]
    | confirmed d => simpa [next] using ih

/-- A fresh row keeps its body exactly through events that are pairwise compatible. -/
theorem whole_foldl_fresh (events : List RowEvent) :
    (events.foldl next .fresh).whole = true ↔ events.Pairwise (fun a b => Compatible a b) := by
  induction events with
  | nil => simp [whole]
  | cons event rest ih =>
    rw [List.foldl_cons, List.pairwise_cons]
    cases event with
    | acknowledged =>
      simp only [next]
      rw [whole_foldl_acknowledged]
      refine ⟨fun alike => ⟨alike, ?_⟩, And.left⟩
      apply List.pairwise_of_forall_mem_list
      intro a insideA b insideB
      have first := alike a insideA
      cases a with
      | acknowledged => exact alike b insideB
      | confirmed d => simp [Compatible] at first
    | confirmed d =>
      cases idle : d.idle with
      | true =>
        simp only [next, idle, if_true]
        rw [ih, iff_and_self]
        intro _ later _
        cases later <;> simp [Compatible, idle]
      | false =>
        simp only [next, idle, Bool.false_eq_true, if_false]
        rw [whole_foldl_archived]
        constructor
        · intro unacknowledged
          refine ⟨fun later inside => ?_, ?_⟩
          · cases later with
            | acknowledged => exact absurd rfl (unacknowledged _ inside)
            | confirmed _ => rfl
          · apply List.pairwise_of_forall_mem_list
            intro a insideA b insideB
            cases a with
            | acknowledged => exact absurd rfl (unacknowledged _ insideA)
            | confirmed _ =>
              cases b with
              | acknowledged => exact absurd rfl (unacknowledged _ insideB)
              | confirmed _ => rfl
        · rintro ⟨alike, -⟩ later inside rfl
          have clash := alike _ inside
          simp [Compatible, idle] at clash

variable {row : NewRow} {life : Life}

theorem Describes.renew {r : Row} (stands : life.Describes row r) (nowMs : Nat) :
    life.Describes row { r with enqueuedAt := some nowMs } := by
  cases life <;> exact stands

theorem Describes.acknowledge {r : Row} (stands : life.Describes row r) (nowMs : Nat) :
    (life.next .acknowledged).Describes row (if r.state = .live then r.acknowledge nowMs else r) := by
  obtain ⟨sent, boxed, rest⟩ := stands
  cases life with
  | fresh =>
    obtain ⟨body, live, version, unarchived⟩ := rest
    rw [if_pos live]
    exact ⟨sent, boxed, by simp [Row.acknowledge, unarchived, body], rfl, by simp [Row.acknowledge, version]⟩
  | archived =>
    obtain ⟨body, live, version, archived⟩ := rest
    rw [if_pos live]
    exact ⟨sent, boxed, by simp [Row.acknowledge, archived], rfl, by simp [Row.acknowledge, version]⟩
  | acknowledged =>
    rw [if_neg (by simp [rest.2.1])]
    exact ⟨sent, boxed, rest⟩
  | stripped =>
    rw [if_neg (by simp [rest.2.1])]
    exact ⟨sent, boxed, rest⟩
  | gone => exact rest.elim

/-- A confirmation of an acknowledged row deletes it or takes its body. -/
theorem of_done_acknowledged {r : Row} (sent : r.sender = row.sender) (boxed : r.messageBox = row.messageBox)
    (dead : r.state = .acknowledged) (version : r.version = 2) (d : Done) :
    Of row (if d.collision || decide (2 ≤ d.version) then .gone else .stripped) (doneRow d r) := by
  rw [doneRow_acknowledged dead, version]
  split
  · rfl
  · exact ⟨sent, boxed, rfl, dead, rfl⟩

/-- A confirmation of a live row archives it unless it is idle. -/
theorem of_done_live {r : Row} (sent : r.sender = row.sender) (boxed : r.messageBox = row.messageBox)
    (body : r.body = some row.body) (live : r.state = .live) (version : r.version = 1) (d : Done) :
    ∃ r', doneRow d r = some r' ∧ r'.sender = row.sender ∧ r'.messageBox = row.messageBox ∧
      r'.body = some row.body ∧ r'.state = .live ∧ r'.version = 1 ∧
      (if d.idle then r'.archivedVersion = r.archivedVersion else 0 < r'.archivedVersion) := by
  have kept : ¬ (r.state = .acknowledged ∧ (d.collision = true ∨ r.version ≤ d.version)) := by
    intro both
    rw [live] at both
    cases both.1
  unfold doneRow
  rw [if_neg kept]
  by_cases collision : d.collision = true
  · rw [if_pos collision]
    exact ⟨_, rfl, sent, boxed, body, live, version, by simp [Done.idle, collision]⟩
  · rw [if_neg collision]
    by_cases zero : d.version = 0
    · rw [if_neg (by omega)]
      exact ⟨_, rfl, sent, boxed, by simp [live, body], live, version, by simp [Done.idle, zero]⟩
    · rw [if_pos (by omega)]
      refine ⟨_, rfl, sent, boxed, body, live, version, ?_⟩
      rw [if_neg (by simp [Done.idle, collision, zero])]
      exact Nat.pos_of_ne_zero zero

theorem Describes.done {r : Row} (stands : life.Describes row r) (d : Done) :
    Of row (life.next (.confirmed d)) (doneRow d r) := by
  obtain ⟨sent, boxed, rest⟩ := stands
  cases life with
  | fresh =>
    obtain ⟨body, live, version, unarchived⟩ := rest
    obtain ⟨r', moved, sent', boxed', body', live', version', archived⟩ := of_done_live sent boxed body live version d
    rw [moved]
    cases idle : d.idle with
    | true =>
      rw [if_pos idle] at archived
      simp only [next, idle, if_true]
      exact ⟨sent', boxed', body', live', version', archived.trans unarchived⟩
    | false =>
      rw [if_neg (by simp [idle])] at archived
      simp only [next, idle, Bool.false_eq_true, if_false]
      exact ⟨sent', boxed', body', live', version', archived⟩
  | archived =>
    obtain ⟨body, live, version, before⟩ := rest
    obtain ⟨r', moved, sent', boxed', body', live', version', archived⟩ := of_done_live sent boxed body live version d
    rw [moved]
    refine ⟨sent', boxed', body', live', version', ?_⟩
    split at archived
    · omega
    · exact archived
  | acknowledged => exact of_done_acknowledged sent boxed rest.2.1 rest.2.2 d
  | stripped => exact of_done_acknowledged sent boxed rest.2.1 rest.2.2 d
  | gone => exact rest.elim

theorem of_archiveDone {mb : Store} (stands : Of row life (mb.find? row.messageId)) (done : List Done) :
    Of row (((MailboxInput.archiveDone done).eventsOf row.messageId).foldl next life)
      ((archiveDone mb done).find? row.messageId) := by
  induction done generalizing mb life with
  | nil => exact stands
  | cons d rest ih =>
    have moved := archiveDoneOne_find? mb d row.messageId
    change Of row _ ((archiveDone (archiveDoneOne mb d) rest).find? row.messageId)
    by_cases aimed : d.messageId = row.messageId
    · rw [if_pos aimed.symm] at moved
      simp only [MailboxInput.eventsOf, aimed, decide_true, List.filter_cons_of_pos, List.map_cons, List.foldl_cons]
      apply ih
      rw [moved]
      cases found : mb.find? row.messageId with
      | none =>
        rw [found] at stands
        cases stands
        rfl
      | some r =>
        rw [found] at stands
        exact Describes.done stands d
    · rw [if_neg (Ne.symm aimed)] at moved
      simp only [MailboxInput.eventsOf, aimed, decide_false, Bool.false_eq_true, not_false_eq_true,
        List.filter_cons_of_neg]
      apply ih
      rw [moved]
      exact stands

/-- One operation moves the row's life by the events it has for it. -/
theorem of_step (bounds : Bounds) {mb : Store} (stands : Of row life (mb.find? row.messageId))
    {input : MailboxInput} (quiet : input.stores = false) :
    Of row ((input.eventsOf row.messageId).foldl next life)
      ((mailboxStep bounds mb input).1.find? row.messageId) := by
  cases input with
  | insert => cases quiet
  | acknowledge ids retry nowMs =>
    simp only [mailboxStep, acknowledge_find?, MailboxInput.eventsOf]
    cases found : mb.find? row.messageId with
    | none =>
      rw [found] at stands
      cases stands
      split <;> rfl
    | some r =>
      rw [found] at stands
      have named := Store.messageId_of_find? found
      by_cases aimed : row.messageId ∈ ids
      · have moved : Of row (life.next .acknowledged) (some (if r.state = .live then r.acknowledge nowMs else r)) :=
          Describes.acknowledge stands nowMs
        simpa [aimed, ackRow, named] using moved
      · simpa [aimed, ackRow, named] using stands
  | takeOwedDue nowMs =>
    have moved := takeOwedDue_find? mb nowMs row.messageId
    simp only [mailboxStep, MailboxInput.eventsOf, List.foldl_nil, moved]
    cases found : mb.find? row.messageId with
    | none =>
      rw [found] at stands
      exact stands
    | some r =>
      rw [found] at stands
      rw [Option.map_some]
      split
      · exact Describes.renew stands nowMs
      · exact stands
  | archiveDone done =>
    exact of_archiveDone stands done

theorem of_after (bounds : Bounds) {mb : Store} (stands : Of row life (mb.find? row.messageId))
    {gap : List MailboxInput} (quiet : ∀ input ∈ gap, input.stores = false) :
    Of row ((rowEvents row.messageId gap).foldl next life) ((after bounds mb gap).find? row.messageId) := by
  induction gap generalizing mb life with
  | nil => exact stands
  | cons input rest ih =>
    simp only [rowEvents, List.flatMap_cons, List.foldl_append, after_cons]
    exact ih (of_step bounds stands (quiet input (List.mem_cons_self ..)))
      (fun later inside => quiet later (List.mem_cons_of_mem _ inside))

/-- The row is still listed. -/
def live : Life → Bool
  | .fresh | .archived => true
  | _ => false

theorem live_next_acknowledged (life : Life) : (life.next .acknowledged).live = false := by
  cases life <;> rfl

theorem live_foldl_dead (events : List RowEvent) (life : Life) (dead : life.live = false) :
    (events.foldl next life).live = false := by
  induction events generalizing life with
  | nil => exact dead
  | cons event rest ih =>
    apply ih
    cases event with
    | acknowledged => exact live_next_acknowledged life
    | confirmed d =>
      cases life with
      | fresh | archived => cases dead
      | gone => rfl
      | acknowledged | stripped =>
        simp only [next]
        split <;> rfl

/-- A row is no longer listed exactly once an acknowledgment reached it. -/
theorem live_foldl_iff (events : List RowEvent) (life : Life) (alive : life.live = true) :
    (events.foldl next life).live = false ↔ .acknowledged ∈ events := by
  induction events generalizing life with
  | nil => simp [alive]
  | cons event rest ih =>
    cases event with
    | acknowledged => simp [live_foldl_dead rest _ (live_next_acknowledged life)]
    | confirmed d =>
      have still : (life.next (.confirmed d)).live = true := by
        cases life with
        | fresh =>
          simp only [next]
          split <;> rfl
        | archived => rfl
        | acknowledged | stripped | gone => cases alive
      simpa using ih _ still

end Life

theorem mem_rowEvents_acknowledged {id : String} {gap : List MailboxInput} :
    .acknowledged ∈ rowEvents id gap ↔ ∃ input ∈ gap, input.acknowledges id := by
  simp only [rowEvents, List.mem_flatMap]
  refine exists_congr (fun input => and_congr_right' ?_)
  cases input with
  | insert | takeOwedDue => simp [MailboxInput.eventsOf, MailboxInput.acknowledges]
  | archiveDone done => simp [MailboxInput.eventsOf, MailboxInput.acknowledges]
  | acknowledge ids retry nowMs =>
    simp only [MailboxInput.eventsOf, MailboxInput.acknowledges]
    split <;> simp_all

/-- The repeat of a store answers as its first attempt did: stored, with one row at most, and a row the
recipient has acknowledged is not listed again. -/
def StoreTransparent (bounds : Bounds) (mb : Store) (row : NewRow) (nowMs : Nat) (gap : List MailboxInput)
    (later : Nat) : Prop :=
  let held := after bounds (insert mb row false nowMs bounds).2 gap
  let repeated := insert held row true later bounds
  hopAnswer repeated.1 = .stored ∧ (repeated.2.rows.rows.map Row.messageId).count row.messageId ≤ 1 ∧
    ((∃ input ∈ gap, input.acknowledges row.messageId) →
      ∀ r, repeated.2.find? row.messageId = some r → r.state ≠ .live)

theorem insert_own {mb : Store} {row : NewRow} {r : Row} (found : mb.find? row.messageId = some r)
    (sent : r.sender = row.sender) (boxed : r.messageBox = row.messageBox) (nowMs : Nat) (bounds : Bounds) :
    insert mb row true nowMs bounds = (if r.body = some row.body then .retried else .duplicate, mb) := by
  by_cases own : r.body = some row.body <;> simp [insert, found, sent, boxed, own]

theorem storeTransparent_iff {bounds : Bounds} {mb : Store} {row : NewRow} {nowMs : Nat}
    (stored : (insert mb row false nowMs bounds).1 = .stored) {gap : List MailboxInput}
    (quiet : ∀ input ∈ gap, input.stores = false) (later : Nat) :
    StoreTransparent bounds mb row nowMs gap later ↔
      (rowEvents row.messageId gap).Pairwise (fun a b => Compatible a b) := by
  obtain ⟨free, same⟩ := insert_of_stored stored
  have start : Life.Of row .fresh ((insert mb row false nowMs bounds).2.find? row.messageId) := by
    rw [same, Store.find?_append free, if_pos rfl]
    exact ⟨rfl, rfl, rfl, rfl, rfl, rfl⟩
  have stands := Life.of_after bounds start quiet
  have listed := Life.live_foldl_iff (rowEvents row.messageId gap) .fresh rfl
  rw [mem_rowEvents_acknowledged] at listed
  rw [← Life.whole_foldl_fresh]
  unfold StoreTransparent
  simp only
  generalize after bounds (insert mb row false nowMs bounds).2 gap = held at stands ⊢
  generalize (rowEvents row.messageId gap).foldl Life.next .fresh = life at stands listed ⊢
  have once (mb : Store) : (mb.rows.rows.map Row.messageId).count row.messageId ≤ 1 :=
    List.nodup_iff_count_le_one.mp mb.rows.unique _
  cases found : held.find? row.messageId with
  | none =>
    rw [found] at stands
    cases stands
    -- Deleted: the repeat is refused, or stores and lists the message again.
    refine ⟨fun transparent => ?_, fun no => by cases no⟩
    have acked := listed.mp rfl
    rcases insert_absent found true later bounds with ⟨bound, repeated⟩ | ⟨repeated, -⟩
    · rw [repeated] at transparent
      cases transparent.1
    · rw [repeated] at transparent
      have relisted := transparent.2.2 acked (freshRow held row later)
      rw [Store.find?_append found, if_pos rfl] at relisted
      exact absurd rfl (relisted rfl)
  | some r =>
    rw [found] at stands
    obtain ⟨sent, boxed, rest⟩ := stands
    rw [insert_own found sent boxed]
    cases life with
    | fresh =>
      refine ⟨fun _ => rfl, fun _ => ⟨by rw [if_pos rest.1]; rfl, once held, fun acked => ?_⟩⟩
      cases listed.mpr acked
    | archived =>
      refine ⟨fun _ => rfl, fun _ => ⟨by rw [if_pos rest.1]; rfl, once held, fun acked => ?_⟩⟩
      cases listed.mpr acked
    | acknowledged =>
      refine ⟨fun _ => rfl, fun _ => ⟨by rw [if_pos rest.1]; rfl, once held, fun _ other same live => ?_⟩⟩
      rw [found] at same
      cases same
      rw [rest.2.1] at live
      cases live
    | stripped =>
      refine ⟨fun transparent => ?_, fun no => by cases no⟩
      rw [if_neg (by simp [rest.1])] at transparent
      cases transparent.1
    | gone => exact rest.elim

/-! The acknowledgment. -/

/-- The ids of a request, each once. -/
def firsts : List String → List String → List String
  | _, [] => []
  | seen, id :: rest => if id ∈ seen then firsts seen rest else id :: firsts (id :: seen) rest

/-- The row counts as acknowledged by a request. -/
def counted (retry : Bool) (found : Option Row) : Bool := found.any (fun r => r.state = .live || retry)

theorem mem_firsts (seen ids : List String) (id : String) : id ∈ firsts seen ids ↔ id ∈ ids ∧ id ∉ seen := by
  induction ids generalizing seen with
  | nil => simp [firsts]
  | cons head rest ih =>
    unfold firsts
    by_cases before : head ∈ seen
    · rw [if_pos before, ih]
      by_cases same : id = head
      · simp [same, before]
      · simp [same]
    · rw [if_neg before, List.mem_cons, ih]
      by_cases same : id = head
      · simp [same, before]
      · simp [same]

/-- The two lists of an acknowledgment are those of the ids as the mailbox held them when it began. -/
theorem acknowledgeLoop_lists (retry : Bool) (nowMs : Nat) (ids seen : List String) (mb : Store) (out : Acked) :
    (acknowledgeLoop retry nowMs ids seen mb out).1 =
      ⟨out.acknowledged ++ (firsts seen ids).filter (fun id => counted retry (mb.find? id)),
        out.missing ++ (firsts seen ids).filter (fun id => !counted retry (mb.find? id))⟩ := by
  induction ids generalizing seen mb out with
  | nil => simp [acknowledgeLoop, firsts]
  | cons id rest ih =>
    unfold acknowledgeLoop firsts
    by_cases before : id ∈ seen
    · rw [if_pos before, if_pos before, ih]
    · rw [if_neg before, if_neg before]
      cases found : mb.find? id with
      | none => simp [ih, found, counted]
      | some r =>
        simp only
        by_cases live : r.state = .live
        · rw [if_pos live, ih]
          -- The other ids are not touched by this row's move.
          have others (k : String) (inside : k ∈ firsts (id :: seen) rest) :
              (acknowledgeRow mb id r.bodyBytes nowMs).find? k = mb.find? k := by
            have differs : k ≠ id := fun same => ((mem_firsts _ _ _).mp inside).2 (same ▸ List.mem_cons_self ..)
            have moved := Store.find?_modify mb id (fun r => r.acknowledge nowMs) (fun _ => rfl) (fun _ => rfl) k
            exact moved.trans (if_neg differs)
          have acked := List.filter_congr (fun k inside => congrArg (counted retry) (others k inside))
          have missing := List.filter_congr (fun k inside => congrArg (fun f => !counted retry f) (others k inside))
          rw [acked, missing]
          simp [found, counted, live]
        · rw [if_neg live]
          cases retry with
          | true => simp [ih, found, counted]
          | false => simp [ih, found, counted, live]

theorem acknowledge_lists (mb : Store) (ids : List String) (retry : Bool) (nowMs : Nat) :
    (acknowledge mb ids retry nowMs).1 =
      ⟨(firsts [] ids).filter (fun id => counted retry (mb.find? id)),
        (firsts [] ids).filter (fun id => !counted retry (mb.find? id))⟩ := by
  rw [acknowledge, acknowledgeLoop_lists]
  simp

/-- The event lets go of an acknowledged row at a version. -/
def releases (version : Nat) : RowEvent → Bool
  | .confirmed d => d.collision || version ≤ d.version
  | .acknowledged => false

/-- An acknowledged row under an id, at a version. -/
def Dead (version : Nat) (found : Option Row) : Prop :=
  ∃ r, found = some r ∧ r.state = .acknowledged ∧ r.version = version

/-- An acknowledged row, or nothing once an event let go of it. -/
def DeadUnless (released : Bool) (version : Nat) (found : Option Row) : Prop :=
  if released then found = none else Dead version found

theorem absent_archiveDone {mb : Store} {id : String} (absent : mb.find? id = none) (done : List Done) :
    (archiveDone mb done).find? id = none := by
  induction done generalizing mb with
  | nil => exact absent
  | cons d rest ih =>
    apply ih
    rw [archiveDoneOne_find?, absent]
    simp

theorem absent_after {bounds : Bounds} {mb : Store} {id : String} (absent : mb.find? id = none)
    {gap : List MailboxInput} (quiet : ∀ input ∈ gap, input.stores = false) :
    (after bounds mb gap).find? id = none := by
  have step (mb : Store) (input : MailboxInput) (absent : mb.find? id = none) (quiet : input.stores = false) :
      (mailboxStep bounds mb input).1.find? id = none := by
    cases input with
    | insert => cases quiet
    | acknowledge ids retry nowMs => simp [mailboxStep, acknowledge_find?, absent]
    | takeOwedDue nowMs => exact (takeOwedDue_find? mb nowMs id).trans (by rw [absent]; rfl)
    | archiveDone done => exact absent_archiveDone absent done
  exact after_invariant step absent quiet

/-- A confirmation of an acknowledged row lets go of it or leaves it acknowledged at its version. -/
theorem dead_doneRow {version : Nat} {r : Row} (dead : r.state = .acknowledged) (at' : r.version = version) (d : Done) :
    DeadUnless (releases version (.confirmed d)) version (doneRow d r) := by
  subst at'
  rw [doneRow_acknowledged dead, DeadUnless]
  simp only [releases]
  split
  · rfl
  · exact ⟨_, rfl, dead, rfl⟩

theorem dead_archiveDone {version : Nat} {mb : Store} {id : String} (dead : Dead version (mb.find? id))
    (done : List Done) :
    DeadUnless (((MailboxInput.archiveDone done).eventsOf id).any (releases version)) version
      ((archiveDone mb done).find? id) := by
  induction done generalizing mb with
  | nil => exact dead
  | cons d rest ih =>
    have moved := archiveDoneOne_find? mb d id
    change DeadUnless _ version ((archiveDone (archiveDoneOne mb d) rest).find? id)
    by_cases aimed : d.messageId = id
    · simp only [MailboxInput.eventsOf, aimed, decide_true, List.filter_cons_of_pos, List.map_cons, List.any_cons]
      obtain ⟨r, found, state, at'⟩ := dead
      rw [if_pos aimed.symm, found, Option.bind_some] at moved
      have next := dead_doneRow state at' d
      unfold DeadUnless at next
      cases gone : releases version (.confirmed d) with
      | true =>
        rw [if_pos gone] at next
        rw [Bool.true_or]
        exact absent_archiveDone (moved.trans next) rest
      | false =>
        rw [if_neg (by simp [gone])] at next
        rw [Bool.false_or]
        exact ih (moved ▸ next)
    · simp only [MailboxInput.eventsOf, aimed, decide_false, Bool.false_eq_true, not_false_eq_true,
        List.filter_cons_of_neg]
      rw [if_neg (Ne.symm aimed)] at moved
      exact ih (moved ▸ dead)

theorem dead_step (bounds : Bounds) {version : Nat} {mb : Store} {id : String} (dead : Dead version (mb.find? id))
    {input : MailboxInput} (quiet : input.stores = false) :
    DeadUnless ((input.eventsOf id).any (releases version)) version ((mailboxStep bounds mb input).1.find? id) := by
  cases input with
  | insert => cases quiet
  | archiveDone done => exact dead_archiveDone dead done
  | takeOwedDue nowMs =>
    obtain ⟨r, found, state, at'⟩ := dead
    have moved := takeOwedDue_find? mb nowMs id
    rw [found, Option.map_some] at moved
    refine ⟨_, moved, ?_⟩
    split <;> exact ⟨state, at'⟩
  | acknowledge ids retry nowMs =>
    obtain ⟨r, found, state, at'⟩ := dead
    have none : ((MailboxInput.acknowledge ids retry nowMs).eventsOf id).any (releases version) = false := by
      simp only [MailboxInput.eventsOf]
      split <;> rfl
    rw [none]
    refine ⟨r, ?_, state, at'⟩
    simp only [mailboxStep, acknowledge_find?, found, Option.map_some, ackRow, state, reduceCtorEq, and_false, if_false]

/-- An acknowledged row is still there after the gap unless an event let go of it. -/
theorem dead_after (bounds : Bounds) {version : Nat} {mb : Store} {id : String} (dead : Dead version (mb.find? id))
    {gap : List MailboxInput} (quiet : ∀ input ∈ gap, input.stores = false) :
    DeadUnless ((rowEvents id gap).any (releases version)) version ((after bounds mb gap).find? id) := by
  induction gap generalizing mb with
  | nil => exact dead
  | cons input rest ih =>
    have next := dead_step bounds dead (quiet input (List.mem_cons_self ..))
    have later (input : MailboxInput) (inside : input ∈ rest) := quiet input (List.mem_cons_of_mem _ inside)
    simp only [rowEvents, List.flatMap_cons, List.any_append, after_cons]
    unfold DeadUnless at next
    cases gone : (input.eventsOf id).any (releases version) with
    | true =>
      rw [if_pos gone] at next
      rw [Bool.true_or]
      exact absent_after next later
    | false =>
      rw [if_neg (by simp [gone])] at next
      rw [Bool.false_or]
      exact ih next later

/-- The repeat of an acknowledgment answers the same two lists, and what it names is not listed again. -/
def AckTransparent (bounds : Bounds) (mb : Store) (ids : List String) (nowMs : Nat) (gap : List MailboxInput)
    (later : Nat) : Prop :=
  let held := after bounds (acknowledge mb ids false nowMs).2 gap
  let repeated := acknowledge held ids true later
  repeated.1 = (acknowledge mb ids false nowMs).1 ∧
    ∀ id ∈ ids, ∀ r, repeated.2.find? id = some r → r.state ≠ .live

/-- A confirmation between the attempts lets go of the row the first attempt left acknowledged. -/
def Released (r : Row) (gap : List MailboxInput) : Bool :=
  (rowEvents r.messageId gap).any (releases (if r.state = .live then r.version + 1 else r.version))

theorem ackTransparent_iff {bounds : Bounds} {mb : Store} {ids : List String} {nowMs : Nat}
    {gap : List MailboxInput} (quiet : ∀ input ∈ gap, input.stores = false) (later : Nat) :
    AckTransparent bounds mb ids nowMs gap later ↔
      ∀ id ∈ ids, ∀ r, mb.find? id = some r → (r.state = .live ↔ Released r gap = false) := by
  have silent (id : String) (named : id ∈ ids) (r : Row)
      (found : (acknowledge (after bounds (acknowledge mb ids false nowMs).2 gap) ids true later).2.find? id = some r) :
      r.state ≠ .live := by
    rw [acknowledge_find?] at found
    obtain ⟨before, there, rfl⟩ := Option.map_eq_some_iff.mp found
    have key := Store.messageId_of_find? there
    unfold ackRow
    split
    · simp [Row.acknowledge]
    · rename_i dead
      exact fun live => dead ⟨key ▸ named, live⟩
  -- At the repeat a named row counts exactly where it is still held.
  have held (id : String) (named : id ∈ ids) (r : Row) (found : mb.find? id = some r) :
      counted true ((after bounds (acknowledge mb ids false nowMs).2 gap).find? id) = !Released r gap := by
    have key := Store.messageId_of_find? found
    have dead : Dead (if r.state = .live then r.version + 1 else r.version)
        ((acknowledge mb ids false nowMs).2.find? id) := by
      refine ⟨ackRow ids nowMs r, by rw [acknowledge_find?, found, Option.map_some], ?_⟩
      by_cases live : r.state = .live
      · simp [ackRow, key, named, live, Row.acknowledge]
      · cases state : r.state with
        | live => exact absurd state live
        | acknowledged => simp [ackRow, state]
    have kept := dead_after bounds dead quiet
    rw [← key] at kept ⊢
    change DeadUnless (Released r gap) _ _ at kept
    cases gone : Released r gap with
    | true =>
      rw [DeadUnless, if_pos gone] at kept
      rw [kept]
      rfl
    | false =>
      rw [DeadUnless, if_neg (by simp [gone])] at kept
      obtain ⟨r', found', -⟩ := kept
      rw [found']
      simp [counted]
  have lists : (acknowledge (after bounds (acknowledge mb ids false nowMs).2 gap) ids true later).1 =
      (acknowledge mb ids false nowMs).1 ↔ ∀ id ∈ ids,
        counted true ((after bounds (acknowledge mb ids false nowMs).2 gap).find? id) =
          counted false (mb.find? id) := by
    rw [acknowledge_lists, acknowledge_lists mb]
    constructor
    · intro same id named
      have inside : id ∈ firsts [] ids := (mem_firsts [] ids id).mpr ⟨named, List.not_mem_nil⟩
      have members := congrArg (fun acked => id ∈ acked.acknowledged) same
      simp only [List.mem_filter, inside, true_and, eq_iff_iff] at members
      exact Bool.eq_iff_iff.mpr members
    · intro agree
      have named (id : String) (inside : id ∈ firsts [] ids) := ((mem_firsts [] ids id).mp inside).1
      rw [List.filter_congr (fun id inside => agree id (named id inside)),
        List.filter_congr (fun id inside => congrArg not (agree id (named id inside)))]
  unfold AckTransparent
  simp only
  rw [and_iff_left silent, lists]
  refine forall₂_congr (fun id named => ?_)
  cases found : mb.find? id with
  | none =>
    have absent : (acknowledge mb ids false nowMs).2.find? id = none := by simp [acknowledge_find?, found]
    simp [absent_after absent quiet, counted]
  | some r =>
    rw [held id named r found]
    simp only [counted, Option.any_some, Bool.or_false, Option.some.injEq, forall_eq']
    cases Released r gap <;> by_cases live : r.state = .live <;> simp [live]

/-- The repeat of a hop whose answer was lost is transparent exactly so. A store: the events of its row in the
gap are pairwise compatible. An acknowledgment: of the rows it names, those it moved are still held and those
it found acknowledged are not. -/
theorem retried_hop_transparent_iff (bounds : Bounds) (mb : Store) (gap : List MailboxInput)
    (quiet : ∀ input ∈ gap, input.stores = false) (nowMs later : Nat) :
    (∀ row, (insert mb row false nowMs bounds).1 = .stored →
      (StoreTransparent bounds mb row nowMs gap later ↔
        (rowEvents row.messageId gap).Pairwise (fun a b => Compatible a b))) ∧
      ∀ ids, AckTransparent bounds mb ids nowMs gap later ↔
        ∀ id ∈ ids, ∀ r, mb.find? id = some r → (r.state = .live ↔ Released r gap = false) :=
  ⟨fun _ stored => storeTransparent_iff stored quiet later, fun _ => ackTransparent_iff quiet later⟩

def note : NewRow := ⟨"m", "inbox", "carol", "hello"⟩

theorem retried_hop_transparent_quietGap :
    StoreTransparent Bounds.ruled Store.empty note 1000 [.acknowledge ["m"] false 2000] 3000 ∧
      AckTransparent Bounds.ruled (after Bounds.ruled Store.empty [.insert note false 1000]) ["m", "n"] 2000
        [.archiveDone [⟨"m", 1, false⟩]] 3000 := by
  constructor
  · exact ((retried_hop_transparent_iff Bounds.ruled Store.empty [.acknowledge ["m"] false 2000] (by decide) 1000
      3000).1 note (by decide +kernel)).mpr (by decide +kernel)
  · refine ((retried_hop_transparent_iff Bounds.ruled (after Bounds.ruled Store.empty [.insert note false 1000])
      [.archiveDone [⟨"m", 1, false⟩]] (by decide) 2000 3000).2 ["m", "n"]).mpr ?_
    intro id named r found
    have only : after Bounds.ruled Store.empty [.insert note false 1000] = Store.empty.append note 1000 := by
      rw [after_cons, mailboxStep, (insert_of_stored (by decide +kernel)).2]
      rfl
    rw [only, Store.find?_append rfl] at found
    split at found
    · cases found
      decide +kernel
    · cases found

/-- Archived and then acknowledged in the gap, a stored row's repeat is answered duplicate. Acknowledged and
then confirmed, its repeat stores the message again, live. An acknowledgment confirmed in the gap is answered
missing. -/
theorem retried_hop_misanswered :
    (insert Store.empty note false 1000 Bounds.ruled).1 = .stored ∧
      (insert (after Bounds.ruled (insert Store.empty note false 1000 Bounds.ruled).2
        [.archiveDone [⟨"m", 1, false⟩], .acknowledge ["m"] false 2000]) note true 3000 Bounds.ruled).1 = .duplicate ∧
      ((insert (after Bounds.ruled (insert Store.empty note false 1000 Bounds.ruled).2
        [.acknowledge ["m"] false 2000, .archiveDone [⟨"m", 2, false⟩]]) note true 3000 Bounds.ruled).2.find? "m").map
          Row.state = some .live ∧
      ¬ StoreTransparent Bounds.ruled Store.empty note 1000
        [.acknowledge ["m"] false 2000, .archiveDone [⟨"m", 2, false⟩]] 3000 ∧
      ¬ AckTransparent Bounds.ruled (after Bounds.ruled Store.empty [.insert note false 1000]) ["m"] 2000
        [.archiveDone [⟨"m", 2, false⟩]] 3000 := by
  refine ⟨by decide +kernel, by decide +kernel, by decide +kernel, ?_, fun transparent => ?_⟩
  · rw [storeTransparent_iff (by decide +kernel) (by decide)]
    decide +kernel
  · have same := congrArg Acked.missing transparent.1
    have differ : (acknowledge (after Bounds.ruled (acknowledge (after Bounds.ruled Store.empty
        [.insert note false 1000]) ["m"] false 2000).2 [.archiveDone [⟨"m", 2, false⟩]]) ["m"] true 3000).1.missing ≠
        (acknowledge (after Bounds.ruled Store.empty [.insert note false 1000]) ["m"] false 2000).1.missing := by
      decide +kernel
    exact differ same

end MessageRelay.Mailbox
