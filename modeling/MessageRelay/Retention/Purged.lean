import MessageRelay.Retention.Transcript

/-! A listing without a tombstone, and the rows that were deleted. The purge deletes before it writes its tombstone, the
sweep writes its tombstones by an earlier clock than it deletes, and a tombstone is collected by its own age. -/

namespace MessageRelay.Retention
open MessageRelay.Library

/-- A deletion at this time is more than twice the retention ago. -/
def Forgotten (ttl now time : Nat) : Prop := time + 2 * ttl * 86400 < now

/-- A listing without `purgedAt` has no deletion of the caller's rows behind it within twice the retention. -/
def Honest (ttl : Nat) (before : List Event) : Event → Prop
  | .listed now caller boxType _ none => ∀ time deleter messageId,
    .deleted time deleter boxType caller messageId ∈ before → Forgotten ttl now time
  | _ => True

/-- Whether a purge deleted rows of the recipient's and no tombstone was written for them since. -/
def unmarks (boxType recipient : String) (unmarked : Bool) : Event → Bool
  | .deleted _ .purge b r _ => if b = boxType ∧ r = recipient then true else unmarked
  | .tombstoned b r => if b = boxType ∧ r = recipient then false else unmarked
  | _ => unmarked

def unmarked (boxType recipient : String) (log : List Event) : Bool :=
  log.foldl (unmarks boxType recipient) false

/-- The statement a step lands. -/
def landing (w : World) : Input → Option Statement
  | .advance i .ok => w.tasks[i]?.bind Task.statement
  | .land j => w.strays[j]?
  | _ => none

/-- The listing a step answers. -/
def answering (w : World) : Input → Option (String × String)
  | .advance i .ok =>
    match w.tasks[i]? with
    | some (.reading caller boxType _) => some (caller, boxType)
    | _ => none
  | _ => none

/-- What is asked of a step: a sweep deletes rows of no box type without a box-wide tombstone, a box-wide tombstone is
collected with no deletion of a sweep within twice the retention, and a caller is answered with no deletion of its
purges left without a tombstone. -/
structure Announced (d : Deployment) (c : Config World Event) (input : Input) : Prop where
  swept : landing c.state input = some .sweepDelete → ∀ row ∈ c.state.messages, c.state.sweepDeletes d row →
    ∀ b ∈ c.state.boxes, b.id = row.boxId → (c.state.tombstones.find? (b.boxType, "*")).isSome
  collected : landing c.state input = some .gcTombstones → ∀ t ∈ c.state.tombstones.rows,
    olderThan (tombstoneDays d.ttl) c.state.now t.purgedAt → t.purgedFor = "*" → ∀ time recipient messageId,
    .deleted time .sweep t.boxType recipient messageId ∈ c.log → Forgotten d.ttl c.state.now time
  marked : ∀ caller boxType, answering c.state input = some (caller, boxType) → unmarked boxType caller c.log = false

/-- Every deletion is forgotten, or has its tombstone. -/
structure Covered (ttl now : Nat) (tombstones : Table Tombstone.place) (log : List Event) : Prop where
  past : ∀ time deleter boxType recipient messageId, .deleted time deleter boxType recipient messageId ∈ log → time ≤ now
  purged : ∀ boxType recipient, unmarked boxType recipient log = false → ∀ time messageId,
    .deleted time .purge boxType recipient messageId ∈ log → Forgotten ttl now time ∨
      ∃ t, tombstones.find? (boxType, recipient) = some t ∧ time ≤ t.purgedAt
  swept : ∀ time boxType recipient messageId, .deleted time .sweep boxType recipient messageId ∈ log →
    Forgotten ttl now time ∨ (tombstones.find? (boxType, "*")).isSome
  honest : Preceded (Honest ttl) log

/-- Neither a deletion nor a tombstone. -/
def Event.Idle : Event → Prop
  | .deleted .. => False
  | .tombstoned .. => False
  | _ => True

theorem olderThan_iff {days now time : Nat} :
    olderThan days now time = true ↔ now < 253402300800 ∧ time + days * 86400 < now := by
  unfold olderThan daysAgo
  split
  · simp
    omega
  · simp
    omega

/-- A tombstone old enough to be collected is older than twice the retention. -/
theorem forgotten_of_collected {ttl now time : Nat} (old : olderThan (tombstoneDays ttl) now time) :
    Forgotten ttl now time := by
  obtain ⟨small, past⟩ := olderThan_iff.mp old
  rw [tombstoneDays] at past
  rcases Nat.le_total (ttl * 2) (2 ^ 32 - 1) with fits | saturated
  · rw [Nat.min_eq_left fits] at past
    rw [Forgotten, Nat.mul_comm 2 ttl]
    exact past
  · rw [Nat.min_eq_right saturated] at past
    norm_num at past
    omega

theorem unmarked_append_idle {boxType recipient : String} {log events : List Event}
    (idle : ∀ event ∈ events, event.Idle) :
    unmarked boxType recipient (log ++ events) = unmarked boxType recipient log := by
  apply foldl_append_idle
  intro event member s
  have none := idle event member
  cases event with
  | deleted | tombstoned => exact none.elim
  | listed | purged | notRetained | notParticipant | internalError => rfl

section
variable {ttl now : Nat} {tombstones : Table Tombstone.place} {log : List Event}

/-- Time passes, and what neither deletes nor marks is emitted. -/
theorem Covered.later (covered : Covered ttl now tombstones log) {later : Nat} (le : now ≤ later)
    {events : List Event} (idle : ∀ event ∈ events, event.Idle) (honest : Preceded (Honest ttl) (log ++ events)) :
    Covered ttl later tombstones (log ++ events) := by
  have old : ∀ {time deleter boxType recipient messageId},
      .deleted time deleter boxType recipient messageId ∈ log ++ events →
        .deleted time deleter boxType recipient messageId ∈ log := by
    intro time deleter boxType recipient messageId member
    exact (List.mem_append.mp member).resolve_right (fun new => idle _ new)
  have forgotten : ∀ {time}, Forgotten ttl now time → Forgotten ttl later time := fun past => past.trans_le le
  refine ⟨fun _ _ _ _ _ member => (covered.past _ _ _ _ _ (old member)).trans le, ?_, ?_, honest⟩
  · intro boxType recipient marked time messageId member
    rw [unmarked_append_idle idle] at marked
    exact (covered.purged boxType recipient marked time messageId (old member)).imp_left forgotten
  · intro time boxType recipient messageId member
    exact (covered.swept time boxType recipient messageId (old member)).imp_left forgotten

/-- With no tombstone among the events, what is marked after them was marked before and lost no rows by them. -/
theorem unmarked_append_false {boxType recipient : String} {events : List Event}
    (untouched : ∀ b r, .tombstoned b r ∉ events) (marked : unmarked boxType recipient (log ++ events) = false) :
    unmarked boxType recipient log = false ∧
      ∀ time messageId, .deleted time .purge boxType recipient messageId ∉ events := by
  induction events using List.reverseRecOn with
  | nil => simpa using marked
  | append_singleton front event ih =>
    rw [← List.append_assoc, unmarked, List.foldl_append, List.foldl_cons, List.foldl_nil] at marked
    have last : unmarked boxType recipient (log ++ front) = false ∧
        ∀ time messageId, event ≠ .deleted time .purge boxType recipient messageId := by
      cases event with
      | deleted time deleter b r messageId =>
        cases deleter with
        | purge =>
          by_cases same : b = boxType ∧ r = recipient
          · simp [unmarks, same] at marked
          · rw [unmarks, if_neg same] at marked
            refine ⟨marked, ?_⟩
            rintro _ _ ⟨⟩
            exact same ⟨rfl, rfl⟩
        | sweep => exact ⟨marked, by simp⟩
      | tombstoned b r => exact absurd (by simp) (untouched b r)
      | listed | purged | notRetained | notParticipant | internalError => exact ⟨marked, by simp⟩
    obtain ⟨before, none⟩ := ih (fun b r member => untouched b r (List.mem_append_left _ member)) last.1
    refine ⟨before, fun time messageId member => ?_⟩
    rcases List.mem_append.mp member with old | new
    · exact none time messageId old
    · exact last.2 time messageId (List.mem_singleton.mp new).symm

theorem honest_append {events : List Event} (unlisted : ∀ event ∈ events, ∀ before, Honest ttl before event)
    (honest : Preceded (Honest ttl) log) : Preceded (Honest ttl) (log ++ events) :=
  (preceded_append_iff unlisted).mpr honest

/-- A delete, where it is a sweep's of boxes that have their tombstone. -/
theorem Covered.deleted (covered : Covered ttl now tombstones log) (deleter : Deleter) {events : List Event}
    (each : ∀ event ∈ events, ∃ boxType recipient messageId,
      event = .deleted now deleter boxType recipient messageId ∧
        (deleter = .sweep → (tombstones.find? (boxType, "*")).isSome)) :
    Covered ttl now tombstones (log ++ events) := by
  have untouched : ∀ b r, .tombstoned b r ∉ events := by
    intro b r member
    obtain ⟨_, _, _, other, -⟩ := each _ member
    cases other
  refine ⟨?_, ?_, ?_, honest_append ?_ covered.honest⟩
  · intro time deleter boxType recipient messageId member
    rcases List.mem_append.mp member with old | new
    · exact covered.past _ _ _ _ _ old
    · obtain ⟨_, _, _, ⟨⟩, -⟩ := each _ new
      exact le_rfl
  · intro boxType recipient marked time messageId member
    obtain ⟨before, none⟩ := unmarked_append_false untouched marked
    exact covered.purged _ _ before _ _ ((List.mem_append.mp member).resolve_right (none time messageId))
  · intro time boxType recipient messageId member
    rcases List.mem_append.mp member with old | new
    · exact covered.swept _ _ _ _ old
    · obtain ⟨_, _, _, ⟨⟩, marked⟩ := each _ new
      exact .inr (marked rfl)
  · intro event member before
    obtain ⟨_, _, _, rfl, -⟩ := each _ member
    trivial

/-- A tombstone written now covers every deletion before it. -/
theorem Covered.tombstoned (covered : Covered ttl now tombstones log) (reason : Reason) (boxType purgedFor : String) :
    Covered ttl now (tombstones.upsert ⟨boxType, purgedFor, reason, now⟩) (log ++ [.tombstoned boxType purgedFor]) := by
  have old : ∀ {time deleter b r messageId},
      .deleted time deleter b r messageId ∈ log ++ [.tombstoned boxType purgedFor] →
        .deleted time deleter b r messageId ∈ log := by
    intro time deleter b r messageId member
    simpa using member
  have found : ∀ place, (tombstones.upsert ⟨boxType, purgedFor, reason, now⟩).find? place =
      if (boxType, purgedFor) = place then some ⟨boxType, purgedFor, reason, now⟩ else tombstones.find? place :=
    fun place => Table.find?_upsert ..
  refine ⟨fun _ _ _ _ _ member => covered.past _ _ _ _ _ (old member), ?_, ?_, honest_append (by simp [Honest])
    covered.honest⟩
  · intro b r marked time messageId member
    rw [found]
    by_cases here : (boxType, purgedFor) = (b, r)
    · exact .inr ⟨_, if_pos here, covered.past _ _ _ _ _ (old member)⟩
    · rw [if_neg here]
      have before : unmarked b r log = false := by
        rw [unmarked, List.foldl_append, List.foldl_cons, List.foldl_nil, unmarks,
          if_neg (fun both => here (Prod.ext both.1 both.2))] at marked
        exact marked
      exact covered.purged b r before time messageId (old member)
  · intro time b r messageId member
    rw [found]
    by_cases here : (boxType, purgedFor) = (b, "*")
    · rw [if_pos here]
      exact .inr rfl
    · rw [if_neg here]
      exact covered.swept time b r messageId (old member)

/-- One tombstone after another. -/
theorem Covered.allTombstoned (covered : Covered ttl now tombstones log) (reason : Reason) (purgedFor : String)
    (types : List String) :
    Covered ttl now (types.foldl (fun t boxType => t.upsert ⟨boxType, purgedFor, reason, now⟩) tombstones)
      (log ++ types.map (.tombstoned · purgedFor)) := by
  induction types generalizing tombstones log with
  | nil => simpa using covered
  | cons boxType rest ih =>
    have whole := ih (covered.tombstoned reason boxType purgedFor)
    rwa [List.append_assoc, List.singleton_append] at whole

/-- The collection of old tombstones, box-wide ones with no deletion of a sweep to cover. -/
theorem Covered.collected (covered : Covered ttl now tombstones log)
    (free : ∀ t ∈ tombstones.rows, olderThan (tombstoneDays ttl) now t.purgedAt → t.purgedFor = "*" →
      ∀ time recipient messageId, .deleted time .sweep t.boxType recipient messageId ∈ log → Forgotten ttl now time) :
    Covered ttl now (tombstones.keep (fun t => !olderThan (tombstoneDays ttl) now t.purgedAt)) log := by
  refine ⟨covered.past, ?_, ?_, covered.honest⟩
  · intro boxType recipient marked time messageId member
    rcases covered.purged boxType recipient marked time messageId member with past | ⟨t, found, after⟩
    · exact .inl past
    · cases old : olderThan (tombstoneDays ttl) now t.purgedAt with
      | true =>
        left
        have gone := forgotten_of_collected old
        unfold Forgotten at gone ⊢
        exact lt_of_le_of_lt (Nat.add_le_add_right after _) gone
      | false =>
        right
        refine ⟨t, ?_, after⟩
        rw [Table.find?_keep, found]
        simp [old]
  · intro time boxType recipient messageId member
    rcases covered.swept time boxType recipient messageId member with past | kept
    · exact .inl past
    · obtain ⟨t, found⟩ := Option.isSome_iff_exists.mp kept
      obtain ⟨row, place⟩ := (tombstones.find?_eq_some _ t).mp found
      obtain ⟨rfl, star⟩ := Prod.ext_iff.mp place
      cases old : olderThan (tombstoneDays ttl) now t.purgedAt with
      | true => exact .inl (free t row old star time recipient messageId member)
      | false =>
        right
        rw [Table.find?_keep, found]
        simp [old]

end

section
variable {d : Deployment} {w : World} {log : List Event}

/-- A statement that lands, where it meets what is asked of the two that may uncover a deletion. -/
theorem Covered.exec (covered : Covered d.ttl w.now w.tombstones log) (s : Statement)
    (swept : s = .sweepDelete → ∀ row ∈ w.messages, w.sweepDeletes d row →
      ∀ b ∈ w.boxes, b.id = row.boxId → (w.tombstones.find? (b.boxType, "*")).isSome)
    (collected : s = .gcTombstones → ∀ t ∈ w.tombstones.rows, olderThan (tombstoneDays d.ttl) w.now t.purgedAt →
      t.purgedFor = "*" → ∀ time recipient messageId,
        .deleted time .sweep t.boxType recipient messageId ∈ log → Forgotten d.ttl w.now time) :
    Covered d.ttl (w.exec d s).1.now (w.exec d s).1.tombstones (log ++ (w.exec d s).2) := by
  cases s with
  | purgeDelete caller boxType =>
    refine covered.deleted .purge (fun event member => ?_)
    obtain ⟨row, -, rfl⟩ := List.mem_map.mp member
    exact ⟨boxType, row.recipient, row.messageId, rfl, by simp⟩
  | purgeTombstone caller boxType => exact covered.tombstoned .client boxType caller
  | sweepTombstone => exact covered.allTombstoned .expired "*" (w.expiringTypes d)
  | sweepDelete =>
    refine covered.deleted .sweep (fun event member => ?_)
    obtain ⟨row, gone, inside⟩ := List.mem_flatMap.mp member
    obtain ⟨b, box, rfl⟩ := List.mem_map.mp inside
    obtain ⟨stored, expired⟩ := List.mem_filter.mp gone
    obtain ⟨known, same⟩ := List.mem_filter.mp box
    exact ⟨b.boxType, row.recipient, row.messageId, rfl,
      fun _ => swept rfl row stored expired b known (by simpa using same)⟩
  | sweepBoxes => simpa [World.exec] using covered
  | gcTombstones => simpa [World.exec] using covered.collected (collected rfl)

theorem latest_some (rows : List Tombstone) (t : Tombstone) :
    ∃ last, rows.foldl latest (some t) = some last := by
  induction rows generalizing t with
  | nil => exact ⟨t, rfl⟩
  | cons next rest ih =>
    rw [List.foldl_cons, latest]
    split
    · exact ih next
    · exact ih t

/-- No tombstone governs the view only where there is none. -/
theorem governing_none {caller boxType : String} (none : w.governing caller boxType = none) :
    w.tombstones.find? (boxType, caller) = .none ∧ w.tombstones.find? (boxType, "*") = .none := by
  have empty : w.tombstones.rows.filter
      (fun t => t.boxType = boxType && (t.purgedFor = caller || t.purgedFor = "*")) = [] := by
    unfold World.governing at none
    cases rows : w.tombstones.rows.filter
        (fun t => t.boxType = boxType && (t.purgedFor = caller || t.purgedFor = "*")) with
    | nil => rfl
    | cons t rest =>
      obtain ⟨last, some⟩ := latest_some rest t
      rw [rows, List.foldl_cons, latest, some] at none
      cases none
  have absent : ∀ t ∈ w.tombstones.rows, t.boxType = boxType → ¬ (t.purgedFor = caller ∨ t.purgedFor = "*") := by
    intro t row same named
    have kept : t ∈ w.tombstones.rows.filter
        (fun t => t.boxType = boxType && (t.purgedFor = caller || t.purgedFor = "*")) := by
      simpa [row, same] using named
    rw [empty] at kept
    cases kept
  rw [Table.find?_eq_none, Table.find?_eq_none]
  refine ⟨fun t row place => ?_, fun t row place => ?_⟩
  · obtain ⟨same, named⟩ := Prod.ext_iff.mp place
    exact absent t row same (.inl named)
  · obtain ⟨same, named⟩ := Prod.ext_iff.mp place
    exact absent t row same (.inr named)

/-- A listing with no deletion left without a tombstone. -/
theorem Covered.listed (covered : Covered d.ttl w.now w.tombstones log) {caller boxType : String}
    (marked : unmarked boxType caller log = false) (rows : List Row) :
    Honest d.ttl log (.listed w.now caller boxType rows (w.governing caller boxType)) := by
  cases answer : w.governing caller boxType with
  | some t => trivial
  | none =>
    obtain ⟨own, all⟩ := governing_none answer
    intro time deleter messageId member
    cases deleter with
    | purge =>
      rcases covered.purged boxType caller marked time messageId member with past | ⟨t, found, -⟩
      · exact past
      · cases own.symm.trans found
    | sweep =>
      rcases covered.swept time boxType caller messageId member with past | kept
      · exact past
      · simp [all] at kept

theorem ensureBox_untouched (recipient boxType : String) :
    (w.ensureBox recipient boxType).now = w.now ∧ (w.ensureBox recipient boxType).tombstones = w.tombstones := by
  unfold World.ensureBox
  split <;> exact ⟨rfl, rfl⟩

theorem insertRow_untouched (messageId sender recipient boxType body : String) (createdAt : Nat) :
    (w.insertRow messageId sender recipient boxType body createdAt).now = w.now ∧
      (w.insertRow messageId sender recipient boxType body createdAt).tombstones = w.tombstones := by
  unfold World.insertRow
  split
  · exact ⟨rfl, rfl⟩
  · split <;> exact ⟨rfl, rfl⟩

theorem written_idle (task : Task) (changes : Nat) : ∀ event ∈ (task.written changes).2, event.Idle := by
  cases task with
  | sweeping rest => cases rest <;> simp [Task.written]
  | marking => simp [Task.written, Event.Idle]
  | checking | purging | listing | reading | finished => simp [Task.written]

theorem written_unlisted (task : Task) (changes ttl : Nat) :
    ∀ event ∈ (task.written changes).2, ∀ before, Honest ttl before event := by
  cases task with
  | sweeping rest => cases rest <;> simp [Task.written]
  | marking => simp [Task.written, Honest]
  | checking | purging | listing | reading | finished => simp [Task.written]

theorem read_idle (task : Task) : ∀ event ∈ (task.read w).2, event.Idle := by
  cases task with
  | checking caller boxType =>
    rw [Task.read]
    split <;> simp [Event.Idle]
  | reading => simp [Task.read, Event.Idle]
  | purging | marking | sweeping | listing | finished => simp [Task.read]

/-- One step that is announced. -/
theorem Covered.advance (c : Config World Event) (input : Input)
    (covered : Covered d.ttl c.state.now c.state.tombstones c.log) (announced : Announced d c input) :
    Covered d.ttl ((transcripts d).advance c input).state.now ((transcripts d).advance c input).state.tombstones
      ((transcripts d).advance c input).log := by
  have quiet : Covered d.ttl c.state.now c.state.tombstones (c.log ++ []) := by simpa using covered
  have refused : ∀ event : Event, event.Idle → (∀ before, Honest d.ttl before event) →
      Covered d.ttl c.state.now c.state.tombstones (c.log ++ [event]) := by
    intro event idle honest
    exact covered.later le_rfl (by simpa using idle) (honest_append (by simpa using honest) covered.honest)
  cases input with
  | tick seconds => exact covered.later (Nat.le_add_right c.state.now seconds) (List.forall_mem_nil Event.Idle) quiet.honest
  | store messageId sender recipient boxType body createdAt =>
    simp only [Machine.advance, transcripts, insertRow_untouched, ensureBox_untouched]
    exact quiet
  | acknowledge recipient ids => exact quiet
  | purge caller boxType =>
    simp only [Machine.advance, transcripts]
    split
    · exact quiet
    · exact refused _ trivial (fun _ => trivial)
  | sweep =>
    simp only [Machine.advance, transcripts]
    split <;> exact quiet
  | list caller boxType =>
    simp only [Machine.advance, transcripts]
    split
    · exact quiet
    · exact refused _ trivial (fun _ => trivial)
  | crash i => exact quiet
  | land j =>
    cases stray : c.state.strays[j]? with
    | none =>
      simp only [Machine.advance, transcripts, stray]
      exact quiet
    | some s =>
      simp only [Machine.advance, transcripts, stray]
      have here : landing c.state (.land j) = some s := stray
      refine Covered.exec (w := { c.state with strays := c.state.strays.eraseIdx j }) covered s ?_ ?_
      · rintro rfl
        exact announced.swept here
      · rintro rfl
        exact announced.collected here
  | advance i outcome =>
    cases found : c.state.tasks[i]? with
    | none =>
      simp only [Machine.advance, transcripts, found]
      exact quiet
    | some task =>
      cases outcome with
      | lost again =>
        simp only [Machine.advance, transcripts, found]
        split
        · exact quiet
        · exact refused _ trivial (fun _ => trivial)
      | ok =>
        cases next : task.statement with
        | some s =>
          simp only [Machine.advance, transcripts, found, next]
          have here : landing c.state (.advance i .ok) = some s := by simp [landing, found, next]
          have landed := covered.exec s (fun same => announced.swept (same ▸ here))
            (fun same => announced.collected (same ▸ here))
          rw [← List.append_assoc]
          exact landed.later le_rfl (written_idle task _)
            (honest_append (written_unlisted task _ d.ttl) landed.honest)
        | none =>
          simp only [Machine.advance, transcripts, found, next]
          refine covered.later le_rfl (read_idle task) ?_
          cases task with
          | reading caller boxType rows =>
            have here : answering c.state (.advance i .ok) = some (caller, boxType) := by simp [answering, found]
            exact covered.honest.snoc (covered.listed (announced.marked caller boxType here) rows)
          | checking caller boxType =>
            refine honest_append ?_ covered.honest
            rw [Task.read]
            split <;> simp [Honest]
          | purging | marking | sweeping | listing | finished =>
            exact honest_append (by simp [Task.read]) covered.honest

end

/-- A listing without `purgedAt` hides no purge, in every run whose steps are announced. -/
theorem transcript_honest (d : Deployment) (w : World) (inputs : List Input)
    (announced : (transcripts d).Guarded (Announced d) ⟨w, []⟩ inputs) :
    Preceded (Honest d.ttl) ((transcripts d).run ⟨w, []⟩ inputs).log := by
  have start : Covered d.ttl w.now w.tombstones [] :=
    ⟨by simp, by simp, by simp, preceded_nil⟩
  have covered := (transcripts d).run_invariant Covered.advance start announced
  exact covered.honest

/-- One retained class, rows kept for the default of 14 days. -/
def games : Deployment := .ofVars (some "low_game_") none

def noRows : World := ⟨1000, [], 1, [], Table.empty, [], []⟩

/-- A row is stored and listed, purged, and listed again. -/
def purgedInFull : List Input :=
  [.store "m1" "alice" "bob" "low_game_1" "move" 1000, .list "bob" "low_game_1", .advance 0 .ok, .advance 0 .ok,
    .purge "bob" "low_game_1", .advance 1 .ok, .advance 1 .ok, .advance 1 .ok,
    .list "bob" "low_game_1", .advance 2 .ok, .advance 2 .ok]

/-- A step that neither sweeps nor collects. -/
theorem announced_plain {d : Deployment} {c : Config World Event} {input : Input}
    (keeps : landing c.state input ≠ some .sweepDelete ∧ landing c.state input ≠ some .gcTombstones)
    (marked : ∀ p ∈ answering c.state input, unmarked p.2 p.1 c.log = false) : Announced d c input where
  swept sweeps := absurd sweeps keeps.1
  collected collects := absurd collects keeps.2
  marked caller boxType here := marked (caller, boxType) here

theorem purged_in_full_honest :
    (transcripts games).Guarded (Announced games) ⟨noRows, []⟩ purgedInFull ∧
      Preceded (Honest games.ttl) ((transcripts games).run ⟨noRows, []⟩ purgedInFull).log := by
  have announced : (transcripts games).Guarded (Announced games) ⟨noRows, []⟩ purgedInFull := by
    refine ⟨?_, ?_, ?_, ?_, ?_, ?_, ?_, ?_, ?_, ?_, ?_, trivial⟩ <;>
      exact announced_plain (by decide +kernel) (by decide +kernel)
  exact ⟨announced, transcript_honest games noRows purgedInFull announced⟩

/-- The request that purges ends between its two statements. -/
def purgedInPart : List Input :=
  [.store "m1" "alice" "bob" "low_game_1" "move" 1000, .purge "bob" "low_game_1", .advance 0 .ok, .advance 0 .ok,
    .crash 0, .list "bob" "low_game_1", .advance 1 .ok, .advance 1 .ok]

theorem purged_in_part_hidden :
    ((transcripts games).run ⟨noRows, []⟩ purgedInPart).log =
        [.deleted 1000 .purge "low_game_1" "bob" "m1", .listed 1000 "bob" "low_game_1" [] none] ∧
      ¬ Preceded (Honest games.ttl) ((transcripts games).run ⟨noRows, []⟩ purgedInPart).log := by
  have log : ((transcripts games).run ⟨noRows, []⟩ purgedInPart).log =
      [.deleted 1000 .purge "low_game_1" "bob" "m1", .listed 1000 "bob" "low_game_1" [] none] := by
    decide +kernel
  refine ⟨log, fun honest => ?_⟩
  rw [log] at honest
  have forgotten := honest [.deleted 1000 .purge "low_game_1" "bob" "m1"] _ [] rfl 1000 .purge "m1" (by simp)
  exact absurd forgotten (by unfold Forgotten; omega)

end MessageRelay.Retention
