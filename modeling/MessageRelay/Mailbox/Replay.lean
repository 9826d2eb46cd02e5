import MessageRelay.Mailbox.Machine

/-! The replay of owed rows over a mailbox's runs: what one call may hand back, and how long a row that is due can be
passed over. -/

namespace MessageRelay.Mailbox
open MessageRelay.Library

/-- A stamp no later than another. A row never enqueued comes before every other. -/
def stampedBy (stamp bound : Option Nat) : Bool :=
  match stamp, bound with
  | none, _ => true
  | some _, none => false
  | some x, some y => x ≤ y

def Row.Due (r : Row) (nowMs : Nat) : Prop := r.owed = true ∧ ∀ stamp ∈ r.enqueuedAt, stamp ≤ nowMs - replayAfterMs

/-- The ids of the owed rows stamped no later than a bound. -/
def aheadOf (mb : Store) (bound : Option Nat) : List String :=
  (mb.rows.rows.filter (fun r => r.owed && stampedBy r.enqueuedAt bound)).map Row.messageId

/-- The ids a call hands back. -/
def replayed (mb : Store) (nowMs : Nat) : List String := (takeOwedDue mb nowMs).1.map ArchiveRow.messageId

def MailboxInput.clock : MailboxInput → Option Nat
  | .insert _ _ nowMs => some nowMs
  | .acknowledge _ _ nowMs => some nowMs
  | .takeOwedDue nowMs => some nowMs
  | .archiveDone _ => none

/-- How many calls of the replay there are. -/
def takes : List MailboxInput → Nat
  | [] => 0
  | .takeOwedDue _ :: rest => takes rest + 1
  | _ :: rest => takes rest

theorem replayed_eq (mb : Store) (nowMs : Nat) : replayed mb nowMs = (owedDue mb nowMs).map Row.messageId := by
  rw [replayed, takeOwedDue, List.map_map]
  rfl

theorem enqueuedBefore_eq (a b : Row) : enqueuedBefore a b = stampedBy a.enqueuedAt b.enqueuedAt := rfl

theorem stampedBy_trans {a b c : Option Nat} (first : stampedBy a b = true) (second : stampedBy b c = true) :
    stampedBy a c = true := by
  cases a <;> cases b <;> cases c <;> simp_all [stampedBy]
  omega

theorem stampedBy_total (a b : Option Nat) : stampedBy a b = true ∨ stampedBy b a = true := by
  cases a <;> cases b <;> simp [stampedBy]
  omega

/-- The due rows, oldest first. -/
theorem owedDue_split (mb : Store) (nowMs : Nat) :
    ∃ left, List.Perm (owedDue mb nowMs ++ left)
        (mb.rows.rows.filter (fun r => r.owed && r.enqueuedAt.all (· ≤ nowMs - replayAfterMs))) ∧
      (∀ r ∈ owedDue mb nowMs, ∀ s ∈ left, enqueuedBefore r s = true) ∧
      (left ≠ [] → (owedDue mb nowMs).length = replayPerRequest) := by
  let due := mb.rows.rows.filter (fun r => r.owed && r.enqueuedAt.all (· ≤ nowMs - replayAfterMs))
  let sorted := due.insertionSort (fun a b => enqueuedBefore a b = true)
  have : Std.Total (fun a b : Row => enqueuedBefore a b = true) := ⟨fun a b => stampedBy_total _ _⟩
  have : IsTrans Row (fun a b => enqueuedBefore a b = true) := ⟨fun a b c => stampedBy_trans⟩
  have ordered : sorted.Pairwise (fun a b => enqueuedBefore a b = true) := List.pairwise_insertionSort _ due
  have parts : owedDue mb nowMs ++ sorted.drop replayPerRequest = sorted := List.take_append_drop ..
  refine ⟨sorted.drop replayPerRequest, ?_, ?_, ?_⟩
  · rw [parts]
    exact List.perm_insertionSort _ due
  · rw [← parts] at ordered
    exact (List.pairwise_append.mp ordered).2.2
  · intro some'
    have longer : replayPerRequest < sorted.length := by
      rw [ne_eq, List.drop_eq_nil_iff] at some'
      omega
    exact List.length_take_of_le longer.le

theorem mem_aheadOf {mb : Store} {bound : Option Nat} {k : String} :
    k ∈ aheadOf mb bound ↔ ∃ row, mb.find? k = some row ∧ row.owed = true ∧ stampedBy row.enqueuedAt bound = true := by
  unfold aheadOf
  simp only [List.mem_map, List.mem_filter, Bool.and_eq_true, Store.mem_rows_iff]
  constructor
  · rintro ⟨row, ⟨held, owed, early⟩, rfl⟩
    exact ⟨row, held, owed, early⟩
  · rintro ⟨row, held, owed, early⟩
    have named := Store.messageId_of_find? held
    exact ⟨row, ⟨named.symm ▸ held, owed, early⟩, named⟩

theorem nodup_aheadOf (mb : Store) (bound : Option Nat) : (aheadOf mb bound).Nodup :=
  (List.filter_sublist.map Row.messageId).nodup mb.rows.unique

theorem nodup_replayed (mb : Store) (nowMs : Nat) : (replayed mb nowMs).Nodup := by
  obtain ⟨left, perm, -⟩ := owedDue_split mb nowMs
  have all : ((owedDue mb nowMs ++ left).map Row.messageId).Nodup :=
    (perm.map Row.messageId).nodup_iff.mpr ((List.filter_sublist.map Row.messageId).nodup mb.rows.unique)
  rw [List.map_append] at all
  rw [replayed_eq]
  exact (List.nodup_append.mp all).1

/-- One call hands back at most so many rows, all of them due, and passes over a due row only for older ones, as many as it
may hand back. -/
theorem replayed_spec (mb : Store) (nowMs : Nat) :
    (replayed mb nowMs).length ≤ replayPerRequest ∧
    (∀ k ∈ replayed mb nowMs, ∃ row, mb.find? k = some row ∧ row.Due nowMs) ∧
    ∀ k row, mb.find? k = some row → row.Due nowMs → k ∉ replayed mb nowMs →
      (replayed mb nowMs).length = replayPerRequest ∧
      ∀ k' ∈ replayed mb nowMs, ∃ row', mb.find? k' = some row' ∧ stampedBy row'.enqueuedAt row.enqueuedAt = true := by
  obtain ⟨left, perm, before, full⟩ := owedDue_split mb nowMs
  have mem_iff (r : Row) : r ∈ owedDue mb nowMs ++ left ↔ mb.find? r.messageId = some r ∧ r.Due nowMs := by
    rw [perm.mem_iff, List.mem_filter, Store.mem_rows_iff, Bool.and_eq_true, Option.all_eq_true]
    simp only [decide_eq_true_eq, Row.Due, Option.mem_def]
  rw [replayed_eq, List.length_map]
  refine ⟨List.length_take_le .., ?_, ?_⟩
  · intro k member
    obtain ⟨row, taken, rfl⟩ := List.mem_map.mp member
    exact ⟨row, (mem_iff row).mp (List.mem_append_left left taken)⟩
  · intro k row held due missed
    have named := Store.messageId_of_find? held
    have passed : row ∈ left := by
      rcases List.mem_append.mp ((mem_iff row).mpr ⟨named.symm ▸ held, due⟩) with taken | passed
      · exact absurd (List.mem_map.mpr ⟨row, taken, named⟩) missed
      · exact passed
    refine ⟨full (List.ne_nil_of_mem passed), ?_⟩
    intro k' member
    obtain ⟨row', taken, rfl⟩ := List.mem_map.mp member
    exact ⟨row', ((mem_iff row').mp (List.mem_append_left left taken)).1, before row' taken row passed⟩

theorem takeOwedDue_find?_replayed (mb : Store) (nowMs : Nat) (k : String) :
    (takeOwedDue mb nowMs).2.find? k = (mb.find? k).map (fun r =>
      if k ∈ replayed mb nowMs then { r with enqueuedAt := some nowMs } else r) := by
  rw [takeOwedDue_find?, replayed_eq]
  simp only [List.mem_map]

theorem archiveDone_find? {mb : Store} {done : List Done} {k : String} {row' : Row}
    (held : (archiveDone mb done).find? k = some row') :
    ∃ row, mb.find? k = some row ∧ row'.enqueuedAt = row.enqueuedAt ∧ row'.state = row.state ∧
      (row'.owed = true → row.owed = true) := by
  induction done generalizing mb with
  | nil => exact ⟨row', held, rfl, rfl, id⟩
  | cons d rest ih =>
    obtain ⟨middle, found, stamp, state, owed⟩ := ih held
    rw [archiveDoneOne_find?] at found
    by_cases own : k = d.messageId
    · rw [if_pos own] at found
      obtain ⟨row, before, made⟩ := Option.bind_eq_some_iff.mp found
      refine ⟨row, before, ?_⟩
      unfold doneRow at made
      split_ifs at made <;> cases made <;> simp_all
    · rw [if_neg own] at found
      exact ⟨middle, found, stamp, state, owed⟩

/-- What an operation makes of a row's stamp: it is left alone, or the row is put, acknowledged or handed back at the
operation's own time. -/
theorem step_row (bounds : Bounds) {mb : Store} {input : MailboxInput} {k : String} {row' : Row}
    (held : (mailboxStep bounds mb input).1.find? k = some row') :
    (∃ row, mb.find? k = some row ∧ row'.enqueuedAt = row.enqueuedAt ∧ row'.state = row.state ∧
      (row'.owed = true → row.owed = true) ∧ ∀ nowMs, input = .takeOwedDue nowMs → k ∉ replayed mb nowMs) ∨
    ∃ nowMs, input.clock = some nowMs ∧ row'.enqueuedAt = some nowMs ∧ ∀ row, mb.find? k = some row →
      row.state = .live ∧ row'.state = .acknowledged ∨
      row'.state = row.state ∧ input = .takeOwedDue nowMs ∧ k ∈ replayed mb nowMs := by
  cases input with
  | insert new retry nowMs =>
    simp only [mailboxStep] at held
    rcases insert_cases mb new retry nowMs bounds with ⟨outcome, -, same⟩ | ⟨same, free, -⟩
    · rw [same] at held
      exact .inl ⟨row', held, rfl, rfl, id, fun nowMs other => nomatch other⟩
    · rw [same] at held
      simp only [Store.find?_append free] at held
      split_ifs at held with own
      · cases held
        refine .inr ⟨nowMs, rfl, rfl, fun row present => ?_⟩
        rw [← own, free] at present
        cases present
      · exact .inl ⟨row', held, rfl, rfl, id, fun nowMs other => nomatch other⟩
  | acknowledge ids retry nowMs =>
    simp only [mailboxStep, acknowledge_find?] at held
    obtain ⟨row, before, made⟩ := Option.map_eq_some_iff.mp held
    unfold ackRow at made
    split_ifs at made with live
    · subst made
      refine .inr ⟨nowMs, rfl, rfl, fun other present => ?_⟩
      rw [before] at present
      cases present
      exact .inl ⟨live.2, rfl⟩
    · subst made
      exact .inl ⟨row, before, rfl, rfl, id, fun nowMs other => nomatch other⟩
  | takeOwedDue nowMs =>
    simp only [mailboxStep, takeOwedDue_find?_replayed] at held
    obtain ⟨row, before, made⟩ := Option.map_eq_some_iff.mp held
    split_ifs at made with handed
    · subst made
      refine .inr ⟨nowMs, rfl, rfl, fun other present => ?_⟩
      rw [before] at present
      cases present
      exact .inr ⟨rfl, rfl, handed⟩
    · subst made
      refine .inl ⟨row, before, rfl, rfl, id, fun now same => ?_⟩
      cases same
      exact handed
  | archiveDone done =>
    obtain ⟨row, before, stamp, state, owed⟩ := archiveDone_find? held
    exact .inl ⟨row, before, stamp, state, owed, fun nowMs other => nomatch other⟩

section
variable {mb : Store} {bound : Option Nat} {input : MailboxInput}
  (late : ∀ nowMs ∈ input.clock, stampedBy (some nowMs) bound = false)
include late

/-- Nothing done after the bound puts a row among those stamped by it. -/
theorem aheadOf_step (bounds : Bounds) {k : String} (member : k ∈ aheadOf (mailboxStep bounds mb input).1 bound) :
    k ∈ aheadOf mb bound ∧ ∀ nowMs, input = .takeOwedDue nowMs → k ∉ replayed mb nowMs := by
  obtain ⟨row', held, owed, early⟩ := mem_aheadOf.mp member
  rcases step_row bounds held with ⟨row, before, stamp, -, stays, passed⟩ | ⟨nowMs, clock, stamp, -⟩
  · exact ⟨mem_aheadOf.mpr ⟨row, before, stays owed, stamp ▸ early⟩, passed⟩
  · rw [stamp, late nowMs clock] at early
    cases early

theorem length_aheadOf_step (bounds : Bounds) :
    (aheadOf (mailboxStep bounds mb input).1 bound).length ≤ (aheadOf mb bound).length :=
  ((nodup_aheadOf _ bound).subperm (fun _ member => (aheadOf_step late bounds member).1)).length_le

end

/-- A call that passes over a due row hands back as many of those ahead of it as it may. -/
theorem length_aheadOf_take (bounds : Bounds) {mb : Store} {nowMs : Nat} {k : String} {row : Row}
    (held : mb.find? k = some row) (due : row.Due nowMs) (late : stampedBy (some nowMs) row.enqueuedAt = false)
    (missed : k ∉ replayed mb nowMs) :
    (aheadOf (mailboxStep bounds mb (.takeOwedDue nowMs)).1 row.enqueuedAt).length + replayPerRequest ≤
      (aheadOf mb row.enqueuedAt).length := by
  obtain ⟨-, dues, passed⟩ := replayed_spec mb nowMs
  obtain ⟨full, older⟩ := passed k row held due missed
  have later : ∀ now ∈ (MailboxInput.takeOwedDue nowMs).clock, stampedBy (some now) row.enqueuedAt = false := by
    intro now same
    cases same
    exact late
  have apart : (aheadOf (mailboxStep bounds mb (.takeOwedDue nowMs)).1 row.enqueuedAt ++ replayed mb nowMs).Nodup := by
    rw [List.nodup_append]
    refine ⟨nodup_aheadOf .., nodup_replayed .., fun a first b second same => ?_⟩
    subst same
    exact (aheadOf_step later bounds first).2 nowMs rfl second
  have within : aheadOf (mailboxStep bounds mb (.takeOwedDue nowMs)).1 row.enqueuedAt ++ replayed mb nowMs ⊆
      aheadOf mb row.enqueuedAt := by
    intro a member
    rcases List.mem_append.mp member with still | handed
    · exact (aheadOf_step later bounds still).1
    · obtain ⟨row', found, early⟩ := older a handed
      obtain ⟨other, found', due'⟩ := dues a handed
      cases found.symm.trans found'
      exact mem_aheadOf.mpr ⟨row', found, due'.1, early⟩
  have counted := (apart.subperm within).length_le
  rwa [List.length_append, full] at counted

theorem Row.Due.late {row : Row} {start nowMs : Nat} (due : row.Due start) (positive : 0 < start) (after' : start ≤ nowMs) :
    stampedBy (some nowMs) row.enqueuedAt = false ∧ row.Due nowMs := by
  obtain ⟨owed, by'⟩ := due
  cases stamp : row.enqueuedAt with
  | none => exact ⟨rfl, owed, by simp [stamp]⟩
  | some enqueued =>
    have early := by' enqueued stamp
    refine ⟨decide_eq_false (by unfold replayAfterMs at early; omega), owed, fun other same => ?_⟩
    rw [stamp] at same
    cases same
    omega

/-- The calls that pass over a row leave fewer and fewer ahead of it. -/
theorem passed_over (bounds : Bounds) {mb : Store} {k : String} {row : Row} (held : mb.find? k = some row) {start : Nat}
    (due : row.Due start) (positive : 0 < start) {inputs : List MailboxInput}
    (clocks : (start :: inputs.filterMap MailboxInput.clock).Pairwise (· ≤ ·))
    (stays : ∀ front, front <+: inputs →
      ∃ row', (after bounds mb front).find? k = some row' ∧ row'.owed = true ∧ row'.state = row.state)
    (missed : ∀ front nowMs rest, inputs = front ++ .takeOwedDue nowMs :: rest →
      k ∉ replayed (after bounds mb front) nowMs) :
    takes inputs * replayPerRequest < (aheadOf mb row.enqueuedAt).length := by
  induction inputs generalizing mb row with
  | nil =>
    have first : k ∈ aheadOf mb row.enqueuedAt :=
      mem_aheadOf.mpr ⟨row, held, due.1, (stampedBy_total _ _).elim id id⟩
    simpa [takes] using List.length_pos_of_mem first
  | cons input rest ih =>
    obtain ⟨row', held', owed', same⟩ := stays [input] ⟨rest, rfl⟩
    rw [after_cons, after_nil] at held'
    have stamp : row'.enqueuedAt = row.enqueuedAt := by
      rcases step_row bounds held' with ⟨other, before, stamp, -⟩ | ⟨nowMs, -, -, handed⟩
      · rw [held] at before
        cases before
        exact stamp
      · rcases handed row held with ⟨live, dead⟩ | ⟨-, rfl, returned⟩
        · rw [live, dead] at same
          cases same
        · exact absurd returned (missed [] nowMs rest rfl)
    have due' : row'.Due start := ⟨owed', fun enqueued given => due.2 enqueued (stamp ▸ given)⟩
    have bounded := @ih (mailboxStep bounds mb input).1 row' held' due'
      (clocks.sublist ((List.sublist_cons_self input rest).filterMap MailboxInput.clock |>.cons_cons start))
      (fun front part => by
        obtain ⟨later, found, owed, state⟩ := stays (input :: front) (List.cons_prefix_cons.mpr ⟨rfl, part⟩)
        rw [after_cons] at found
        exact ⟨later, found, owed, state.trans same.symm⟩)
      (fun front nowMs later parts => by
        have misses := missed (input :: front) nowMs later (by rw [parts, List.cons_append])
        rwa [after_cons] at misses)
    have late : ∀ nowMs ∈ input.clock, start ≤ nowMs := by
      intro nowMs given
      refine (List.pairwise_cons.mp clocks).1 nowMs (List.mem_filterMap.mpr ⟨input, List.mem_cons_self, given⟩)
    rw [stamp] at bounded
    cases input with
    | takeOwedDue nowMs =>
      have both := due.late positive (late nowMs rfl)
      have fewer := length_aheadOf_take bounds held both.2 both.1 (missed [] nowMs rest rfl)
      rw [takes, Nat.add_mul, Nat.one_mul]
      omega
    | insert | acknowledge | archiveDone =>
      exact bounded.trans_le (length_aheadOf_step (fun nowMs given => (due.late positive (late nowMs given)).1) bounds)

/-! A history that goes on for ever. -/

section
variable (history : Nat → MailboxInput)

def segment (first length : Nat) : List MailboxInput := (List.range length).map (fun i => history (first + i))

theorem segment_add (first a b : Nat) :
    segment history first (a + b) = segment history first a ++ segment history (first + a) b := by
  simp only [segment, List.range_add, List.map_append, List.map_map, Function.comp_def, Nat.add_assoc]

theorem takes_append (first second : List MailboxInput) : takes (first ++ second) = takes first + takes second := by
  induction first with
  | nil => simp [takes]
  | cons input rest ih =>
    cases input with
    | takeOwedDue nowMs =>
      rw [List.cons_append, takes, takes, ih]
      omega
    | insert | acknowledge | archiveDone => exact ih

/-- The mailbox before so many operations of the history. -/
def mailboxAt (bounds : Bounds) (mb : Store) (n : Nat) : Store := after bounds mb (segment history 0 n)

variable {history} {bounds : Bounds} {mb : Store}

theorem mailboxAt_add (n length : Nat) :
    mailboxAt history bounds mb (n + length) = after bounds (mailboxAt history bounds mb n) (segment history n length) := by
  rw [mailboxAt, segment_add, after_append, Nat.zero_add]
  rfl

theorem mailboxAt_succ (n : Nat) :
    mailboxAt history bounds mb (n + 1) = (mailboxStep bounds (mailboxAt history bounds mb n) (history n)).1 := by
  rw [mailboxAt_add]
  simp [segment, List.range_succ]

theorem prefix_segment {first length : Nat} {front : List MailboxInput} (part : front <+: segment history first length) :
    front = segment history first front.length := by
  have within : front.length ≤ length := by simpa [segment] using part.length_le
  obtain ⟨more, rfl⟩ := Nat.exists_eq_add_of_le within
  rw [segment_add] at part
  exact (List.prefix_of_prefix_length_le part (List.prefix_append ..) (by simp [segment])).eq_of_length (by simp [segment])

/-- A row is acknowledged once. -/
theorem step_state (bounds : Bounds) {mb : Store} {input : MailboxInput} {k : String} {row row' : Row}
    (held : mb.find? k = some row) (held' : (mailboxStep bounds mb input).1.find? k = some row')
    (acknowledged : row.state = .acknowledged) : row'.state = .acknowledged := by
  rcases step_row bounds held' with ⟨other, before, -, same, -⟩ | ⟨nowMs, -, -, moved⟩
  · rw [held] at before
    cases before
    exact same.trans acknowledged
  · rcases moved row held with ⟨-, dead⟩ | ⟨same, -⟩
    · exact dead
    · exact same.trans acknowledged

/-- The row under an id is owed at every point of the history. -/
def OwedThroughout (history : Nat → MailboxInput) (bounds : Bounds) (mb : Store) (k : String) : Prop :=
  ∀ n, ∃ row, (mailboxAt history bounds mb n).find? k = some row ∧ row.owed = true

theorem acknowledged_from {k : String} (owed : OwedThroughout history bounds mb k) {n : Nat} {row : Row}
    (held : (mailboxAt history bounds mb n).find? k = some row) (acknowledged : row.state = .acknowledged) (more : Nat) :
    ∃ row', (mailboxAt history bounds mb (n + more)).find? k = some row' ∧ row'.state = .acknowledged := by
  induction more with
  | zero => exact ⟨row, held, acknowledged⟩
  | succ more ih =>
    obtain ⟨before, found, dead⟩ := ih
    obtain ⟨row', found', -⟩ := owed (n + (more + 1))
    refine ⟨row', found', ?_⟩
    rw [← Nat.add_assoc, mailboxAt_succ] at found'
    exact step_state bounds found found' dead

/-- From some point on the row is acknowledged no more. -/
theorem state_settles {k : String} (owed : OwedThroughout history bounds mb k) (n : Nat) :
    ∃ settled ≥ n, ∃ state, ∀ m ≥ settled, ∃ row, (mailboxAt history bounds mb m).find? k = some row ∧ row.owed = true ∧
      row.state = state := by
  by_cases ever : ∃ m ≥ n, ∃ row, (mailboxAt history bounds mb m).find? k = some row ∧ row.state = .acknowledged
  · obtain ⟨settled, later, row, held, dead⟩ := ever
    refine ⟨settled, later, .acknowledged, fun m after' => ?_⟩
    obtain ⟨more, rfl⟩ := Nat.exists_eq_add_of_le after'
    obtain ⟨row', found, dead'⟩ := acknowledged_from owed held dead more
    obtain ⟨other, found', owed'⟩ := owed (settled + more)
    cases found.symm.trans found'
    exact ⟨row', found, owed', dead'⟩
  · refine ⟨n, le_rfl, .live, fun m after' => ?_⟩
    obtain ⟨row, found, owed'⟩ := owed m
    refine ⟨row, found, owed', ?_⟩
    cases state : row.state with
    | live => rfl
    | acknowledged => exact absurd ⟨m, after', row, found, state⟩ ever

theorem exists_takes (often : ∀ n, ∃ m ≥ n, ∃ nowMs, history m = .takeOwedDue nowMs) (first count : Nat) :
    ∃ length, count ≤ takes (segment history first length) := by
  induction count with
  | zero => exact ⟨0, Nat.zero_le _⟩
  | succ count ih =>
    obtain ⟨length, enough⟩ := ih
    obtain ⟨m, later, nowMs, take⟩ := often (first + length)
    obtain ⟨gap, rfl⟩ := Nat.exists_eq_add_of_le later
    refine ⟨length + (gap + 1), ?_⟩
    have last : takes (segment history (first + length + gap) 1) = 1 := by
      simp [segment, List.range_succ, take, takes]
    rw [segment_add, segment_add, takes_append, takes_append, last]
    omega

/-- Times after 0 that never fall back. -/
def Rising (history : Nat → MailboxInput) : Prop :=
  (∀ i, ∀ nowMs ∈ (history i).clock, 0 < nowMs) ∧
    ∀ i j, i ≤ j → ∀ a ∈ (history i).clock, ∀ b ∈ (history j).clock, a ≤ b

theorem Rising.clocks (rising : Rising history) {first nowMs : Nat} (now : nowMs ∈ (history first).clock) (length : Nat) :
    (nowMs :: (segment history first length).filterMap MailboxInput.clock).Pairwise (· ≤ ·) := by
  rw [List.pairwise_cons, List.pairwise_filterMap, segment, List.pairwise_map]
  constructor
  · intro b member
    obtain ⟨input, listed, given⟩ := List.mem_filterMap.mp member
    obtain ⟨i, -, rfl⟩ := List.mem_map.mp listed
    exact rising.2 first (first + i) (Nat.le_add_right ..) nowMs now b given
  · exact List.pairwise_lt_range.imp (fun {i j} less a first' b second =>
      rising.2 (first + i) (first + j) (by omega) a first' b second)

theorem returned_again (rising : Rising history) {k : String} (owed : OwedThroughout history bounds mb k)
    (due : ∀ n, ∃ m ≥ n, ∃ nowMs, history m = .takeOwedDue nowMs ∧
      ∃ row, (mailboxAt history bounds mb m).find? k = some row ∧ row.Due nowMs) (n : Nat) :
    ∃ m ≥ n, ∃ nowMs, history m = .takeOwedDue nowMs ∧ k ∈ replayed (mailboxAt history bounds mb m) nowMs := by
  by_contra never
  push Not at never
  obtain ⟨settled, later, state, still⟩ := state_settles owed n
  obtain ⟨m, after', nowMs, take, row, held, isDue⟩ := due settled
  have often : ∀ n, ∃ m ≥ n, ∃ nowMs, history m = .takeOwedDue nowMs := by
    intro n
    obtain ⟨m, after', nowMs, take, -⟩ := due n
    exact ⟨m, after', nowMs, take⟩
  obtain ⟨length, enough⟩ := exists_takes often m (aheadOf (mailboxAt history bounds mb m) row.enqueuedAt).length
  have now : nowMs ∈ (history m).clock := by simp [take, MailboxInput.clock]
  have few := passed_over bounds held isDue (rising.1 m nowMs now) (rising.clocks now length)
    (fun front part => by
      rw [prefix_segment part, ← mailboxAt_add]
      obtain ⟨row', found, owed', same⟩ := still (m + front.length) (by omega)
      obtain ⟨row'', found', -, same'⟩ := still m after'
      cases held.symm.trans found'
      exact ⟨row', found, owed', same.trans same'.symm⟩)
    (fun front now' rest parts => by
      have part : front ++ [.takeOwedDue now'] <+: segment history m length := ⟨rest, by rw [parts]; simp⟩
      have here := prefix_segment part
      rw [List.length_append, List.length_singleton, segment_add] at here
      obtain ⟨same, last⟩ := List.append_inj' here (by simp [segment])
      have call : history (m + front.length) = .takeOwedDue now' := by simpa [segment, List.range_succ] using last.symm
      rw [same, ← mailboxAt_add]
      exact never (m + front.length) (by omega) now' call)
  have step : takes (segment history m length) ≤ takes (segment history m length) * replayPerRequest :=
    Nat.le_mul_of_pos_right _ (by decide)
  omega

end

/-- A call hands back at most so many rows, all of them owed and due, and none while it leaves out a due one stamped before
it. At times after 0 that never fall back, a due row that stays owed and is not acknowledged is handed back before the calls
could have handed back all the rows ahead of it. In a history without end, a row that stays owed and is ever due again
is handed back again and again, whatever is done to the others and itself. -/
theorem replay_fair (bounds : Bounds) (mb : Store) :
    (∀ nowMs, (takeOwedDue mb nowMs).1.length ≤ replayPerRequest ∧
      ∀ a ∈ (takeOwedDue mb nowMs).1, ∃ row, mb.find? a.messageId = some row ∧ a = archiveRow row ∧ row.Due nowMs ∧
        ∀ k left, mb.find? k = some left → left.Due nowMs → k ∉ replayed mb nowMs →
          stampedBy row.enqueuedAt left.enqueuedAt = true) ∧
    (∀ k row start inputs, mb.find? k = some row → row.Due start → 0 < start →
      (start :: inputs.filterMap MailboxInput.clock).Pairwise (· ≤ ·) →
      (∀ front, front <+: inputs →
        ∃ row', (after bounds mb front).find? k = some row' ∧ row'.owed = true ∧ row'.state = row.state) →
      (aheadOf mb row.enqueuedAt).length ≤ takes inputs * replayPerRequest →
      ∃ front nowMs rest, inputs = front ++ .takeOwedDue nowMs :: rest ∧ k ∈ replayed (after bounds mb front) nowMs) ∧
    ∀ history k, Rising history → OwedThroughout history bounds mb k →
      (∀ n, ∃ m ≥ n, ∃ nowMs, history m = .takeOwedDue nowMs ∧
        ∃ row, (mailboxAt history bounds mb m).find? k = some row ∧ row.Due nowMs) →
      ∀ n, ∃ m ≥ n, ∃ nowMs, history m = .takeOwedDue nowMs ∧ k ∈ replayed (mailboxAt history bounds mb m) nowMs := by
  refine ⟨?safe, ?bounded, fun history k rising owed due => returned_again rising owed due⟩
  case safe =>
    intro nowMs
    obtain ⟨few, dues, passed⟩ := replayed_spec mb nowMs
    refine ⟨by simpa [replayed] using few, fun a member => ?_⟩
    obtain ⟨row, taken, rfl⟩ := List.mem_map.mp member
    have handed : row.messageId ∈ replayed mb nowMs := List.mem_map_of_mem (f := ArchiveRow.messageId) member
    obtain ⟨other, held, due⟩ := dues row.messageId handed
    cases held.symm.trans (mem_owedDue taken)
    refine ⟨row, held, rfl, due, fun k left found due' missed => ?_⟩
    obtain ⟨other, held', early⟩ := (passed k left found due' missed).2 row.messageId handed
    cases held.symm.trans held'
    exact early
  case bounded =>
    intro k row start inputs held due positive clocks stays enough
    by_contra never
    refine absurd (passed_over bounds held due positive clocks stays fun front nowMs rest parts handed => ?_)
      (Nat.not_lt.mpr enough)
    exact never ⟨front, nowMs, rest, parts, handed⟩

/-! At the time 0 a row handed back is stamped as it was before. -/

theorem renewEnqueued_same {mb : Store} {nowMs : Nat} (stamped : ∀ r ∈ mb.rows.rows, r.enqueuedAt = some nowMs) (row : Row) :
    renewEnqueued nowMs mb row = mb := by
  have same : (mb.rows.modify row.messageId (fun held => { held with enqueuedAt := some nowMs }) (fun _ => rfl)).rows =
      mb.rows.rows := by
    simp only [Table.modify, Table.map]
    refine (List.map_congr_left (fun r member => ?_)).trans (List.map_id _)
    simp only [← stamped r member]
    split_ifs <;> rfl
  obtain ⟨⟨rows, unique⟩, nextSeq, rowsHeld, bytesHeld, ordered⟩ := mb
  have tables {t t' : Table Row.messageId} (rows : t.rows = t'.rows) : t = t' := by
    cases t
    cases t'
    cases rows
    rfl
  simp only [renewEnqueued, Store.modify, Store.mk.injEq, and_true]
  exact tables same

theorem takeOwedDue_zero {mb : Store} (stamped : ∀ r ∈ mb.rows.rows, r.owed = true ∧ r.enqueuedAt = some 0) :
    (takeOwedDue mb 0).2 = mb ∧ owedDue mb 0 = mb.rows.rows.take replayPerRequest := by
  constructor
  · have fold (due : List Row) : due.foldl (renewEnqueued 0) mb = mb := by
      induction due with
      | nil => rfl
      | cons row rest ih => rw [List.foldl_cons, renewEnqueued_same (fun r member => (stamped r member).2), ih]
    exact fold _
  · have all : mb.rows.rows.filter (fun r => r.owed && r.enqueuedAt.all (· ≤ 0 - replayAfterMs)) = mb.rows.rows := by
      refine List.filter_eq_self.mpr (fun r member => ?_)
      rw [(stamped r member).1, (stamped r member).2]
      rfl
    have tied : mb.rows.rows.Pairwise (fun a b => enqueuedBefore a b = true) := by
      apply List.pairwise_of_forall_mem_list
      intro a first b second
      rw [enqueuedBefore_eq, (stamped a first).2, (stamped b second).2]
      rfl
    rw [owedDue, all, tied.insertionSort_eq]

/-- A row stored at the time 0. -/
def zeroRow (i : Nat) : Row :=
  { seq := i + 1, messageId := String.ofList (List.replicate (i + 1) 'm'), messageBox := "inbox", sender := "02",
    body := some "x", bodyBytes := 1, state := .live, version := 1, archivedVersion := 0, owed := true,
    enqueuedAt := some 0, collision := false, createdAt := sqliteTime 0, updatedAt := sqliteTime 0 }

theorem messageId_zeroRow {i j : Nat} (same : (zeroRow i).messageId = (zeroRow j).messageId) : i = j := by
  have lengths := congrArg (fun id : String => id.toList.length) same
  simpa [zeroRow] using lengths

def zeroMailbox : Store where
  rows := ⟨(List.range 17).map zeroRow, by
    rw [List.map_map]
    exact List.nodup_range.map_on (fun i _ j _ same => messageId_zeroRow same)⟩
  nextSeq := 18
  rowsHeld := 17
  bytesHeld := 17
  ordered := by decide

/-- Seventeen rows stored at the time 0 and replayed at it: the sixteen handed back lead again, and the last one never is. -/
theorem zeroMailbox_starves :
    zeroMailbox.find? (zeroRow 16).messageId = some (zeroRow 16) ∧ (zeroRow 16).Due 0 ∧
    ∀ calls : Nat, after Bounds.ruled zeroMailbox (List.replicate calls (.takeOwedDue 0)) = zeroMailbox ∧
      (zeroRow 16).messageId ∉ replayed (after Bounds.ruled zeroMailbox (List.replicate calls (.takeOwedDue 0))) 0 := by
  have stamped : ∀ r ∈ zeroMailbox.rows.rows, r.owed = true ∧ r.enqueuedAt = some 0 := by
    intro r member
    obtain ⟨i, -, rfl⟩ := List.mem_map.mp member
    exact ⟨rfl, rfl⟩
  obtain ⟨same, first⟩ := takeOwedDue_zero stamped
  have still (calls : Nat) : after Bounds.ruled zeroMailbox (List.replicate calls (.takeOwedDue 0)) = zeroMailbox := by
    induction calls with
    | zero => rfl
    | succ calls ih =>
      rw [List.replicate_succ, after_cons]
      change after Bounds.ruled (takeOwedDue zeroMailbox 0).2 _ = _
      rw [same, ih]
  refine ⟨?_, ⟨rfl, fun stamp given => ?_⟩, fun calls => ⟨still calls, ?_⟩⟩
  · exact (zeroMailbox.mem_rows_iff _).mp (List.mem_map.mpr ⟨16, by decide, rfl⟩)
  · cases given
    exact Nat.zero_le _
  · rw [still calls, replayed_eq, first]
    intro member
    obtain ⟨r, taken, named⟩ := List.mem_map.mp member
    have front : zeroMailbox.rows.rows.take replayPerRequest = (List.range 16).map zeroRow := by
      change ((List.range 17).map zeroRow).take 16 = _
      rw [← List.map_take, List.take_range]
      rfl
    rw [front] at taken
    obtain ⟨i, early, rfl⟩ := List.mem_map.mp taken
    have i16 := messageId_zeroRow named
    simp [i16] at early

end MessageRelay.Mailbox
