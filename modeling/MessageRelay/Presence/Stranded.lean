import MessageRelay.Presence.Departures

/-! No departure is stranded. The arm path, the alarm run and the re-arm net share one alarm; each leaves it set while an
entry is stored. The alarm's set is read back; the entry's put is not, and one that is silently dropped goes unheard. -/

namespace MessageRelay.Presence
open Library

/-- An alarm run past its list: the rooms it has still to check, the one whose entry it has deleted and whose occupancy
it is reading, and the next due time it will arm. -/
structure AlarmRun where
  due : List String
  checking : Option String
  next : Option Nat
  deriving DecidableEq, Repr

structure DepartureWorld where
  pending : PendingRows
  alarm : Option Nat
  alarmRun : Option AlarmRun
  pushing : List String
  rearmNetLastMs : Nat

/-- What happens to the departures of a hub. `settle` is the answer to a push of the arm path. -/
inductive DepartureInput where
  | arm (room leaver : String) (nowMs : Nat) (put : Write) (calls : AlarmCalls)
  | settle (push : Nat)
  | ring (nowMs : Nat) (listed : Bool) (clock : Nat)
  | turn
  | verdict (occupied : Bool)
  | finish (calls : AlarmCalls)
  | net (nowMs : Nat) (listed : Bool) (calls : AlarmCalls)
  | wake

inductive DepartureEvent where
  | departed (room : String)
  | pushed (room : String)
  | foundOccupied (room : String)
  deriving DecidableEq, Repr

/-- The fallback: the entry goes, and the push is made at once. -/
def immediatePush (w : DepartureWorld) (room : String) : DepartureWorld × List DepartureEvent :=
  ({ w with pending := w.pending.keep (fun row => row.room ≠ room), pushing := w.pushing ++ [room] },
    [.departed room, .pushed room])

def armDeparture (w : DepartureWorld) (room leaver : String) (nowMs : Nat) (put : Write) (calls : AlarmCalls) :
    DepartureWorld × List DepartureEvent :=
  let entry := armDepartureDebounce leaver nowMs
  let w := { w with pending := if put.landed then w.pending.upsert ⟨room, entry⟩ else w.pending }
  if !put.ok then immediatePush w room
  else
    let ensured := ensureAlarmNoLaterThan w.alarm entry.dueAtMs calls
    let w := { w with alarm := ensured.2 }
    if ensured.1 then (w, [.departed room]) else immediatePush w room

/-- The alarm fires. A list that fails sets the retry, and its set takes effect. -/
def ringAlarm (w : DepartureWorld) (nowMs : Nat) (listed : Bool) (clock : Nat) : DepartureWorld :=
  match w.alarmRun, w.alarm with
  | none, some _ =>
    if listed then
      let split := splitDuePending w.pending.rows nowMs
      { w with alarm := none, alarmRun := some ⟨split.1.map PendingRow.room, none, split.2.2⟩ }
    else { w with alarm := some (clock + peerLeftDebounceMs) }
  | _, _ => w

/-- The run's set of the next alarm takes effect, whatever it reads. -/
def finishRun (w : DepartureWorld) (calls : AlarmCalls) : DepartureWorld :=
  match w.alarmRun with
  | some ⟨[], none, next⟩ =>
    let took : AlarmCalls := { calls with first := { calls.first with write := ⟨true, true⟩ } }
    { w with
      alarmRun := none
      alarm := next.elim w.alarm (fun n => (ensureAlarmNoLaterThan w.alarm n took).2) }
  | _ => w

def earliestDue (rows : List PendingRow) : Option Nat := (rows.map (fun row => row.entry.dueAtMs)).min?

def rearmPendingDeparturesNet (w : DepartureWorld) (nowMs : Nat) (listed : Bool) (calls : AlarmCalls) :
    DepartureWorld :=
  if !rearmNetDue w.rearmNetLastMs nowMs then w
  else if !listed then { w with rearmNetLastMs := 0 }
  else
    { w with
      rearmNetLastMs := nowMs
      alarm := (earliestDue w.pending.rows).elim w.alarm (fun due => (ensureAlarmNoLaterThan w.alarm due calls).2) }

def departureStep (w : DepartureWorld) : DepartureInput → DepartureWorld × List DepartureEvent
  | .arm room leaver nowMs put calls => armDeparture w room leaver nowMs put calls
  | .settle push => ({ w with pushing := w.pushing.eraseIdx push }, [])
  | .ring nowMs listed clock => (ringAlarm w nowMs listed clock, [])
  | .turn =>
    match w.alarmRun with
    | some ⟨room :: rest, none, next⟩ =>
      ({ w with pending := w.pending.keep (fun row => row.room ≠ room), alarmRun := some ⟨rest, some room, next⟩ }, [])
    | _ => (w, [])
  | .verdict occupied =>
    match w.alarmRun with
    | some ⟨rest, some room, next⟩ =>
      ({ w with alarmRun := some ⟨rest, none, next⟩ },
        if departurePushDue occupied then [.pushed room] else [.foundOccupied room])
    | _ => (w, [])
  | .finish calls => (finishRun w calls, [])
  | .net nowMs listed calls => (rearmPendingDeparturesNet w nowMs listed calls, [])
  | .wake => ({ w with rearmNetLastMs := 0 }, [])

def departureMachine : Machine DepartureWorld DepartureInput DepartureEvent := ⟨departureStep⟩

abbrev DepartureConfig := Config DepartureWorld DepartureEvent

def departureStart : DepartureConfig := ⟨⟨Table.empty, none, none, [], 0⟩, []⟩

/-- The room's last departure has been followed neither by its push nor by an alarm run that found it occupied. -/
def unanswered (log : List DepartureEvent) (room : String) : Bool :=
  log.foldl (fun owed e =>
    match e with
    | .departed r => if r = room then true else owed
    | .pushed r | .foundOccupied r => if r = room then false else owed) false

/-- Where no handler is running, an entry that is stored has an alarm, and a departure whose entry is not stored has been
answered. -/
def NoneStranded (c : DepartureConfig) : Prop :=
  c.state.alarmRun = none → c.state.pushing = [] →
    (c.state.pending.rows ≠ [] → c.state.alarm.isSome = true) ∧
      ∀ room, unanswered c.log room = true → c.state.pending.find? room ≠ none

/-- The condition on one step: a put that answers success is stored, or an entry of the room is; and an alarm run ends
at a time within an `i64`. -/
def Stored (c : DepartureConfig) : DepartureInput → Prop
  | .arm room _ _ put _ => put.ok = true → put.landed = false → c.state.pending.find? room ≠ none
  | .finish calls => calls.nowMs < 2 ^ 63
  | _ => True

instance (c : DepartureConfig) (input : DepartureInput) : Decidable (Stored c input) :=
  match input with
  | .arm .. => inferInstanceAs (Decidable (_ → _ → _))
  | .finish .. => inferInstanceAs (Decidable (_ < _))
  | .settle .. | .ring .. | .turn | .verdict .. | .net .. | .wake => .isTrue trivial

/-- What stands between the handlers: every entry's time is within an `i64`; it has an alarm, or the run in progress
will delete it or set one; and a departure that is unanswered has its entry or is being checked. -/
structure Watched (c : DepartureConfig) : Prop where
  bounded : ∀ row ∈ c.state.pending.rows, row.entry.dueAtMs < 2 ^ 63
  nextBounded : ∀ run next, c.state.alarmRun = some run → run.next = some next → next < 2 ^ 63
  alarmed : ∀ row ∈ c.state.pending.rows, c.state.alarm.isSome = true ∨
    ∃ run, c.state.alarmRun = some run ∧ (run.next.isSome = true ∨ row.room ∈ run.due)
  entered : ∀ room, unanswered c.log room = true → c.state.pending.find? room ≠ none ∨
    ∃ run, c.state.alarmRun = some run ∧ run.checking = some room

theorem Watched.noneStranded {c : DepartureConfig} (watched : Watched c) : NoneStranded c := by
  intro noRun _
  constructor
  · intro some
    obtain ⟨row, member⟩ := List.exists_mem_of_ne_nil _ some
    obtain there | ⟨run, running, -⟩ := watched.alarmed row member
    · exact there
    · rw [noRun] at running
      cases running
  · intro room open'
    obtain there | ⟨run, running, -⟩ := watched.entered room open'
    · exact there
    · rw [noRun] at running
      cases running

theorem unanswered_append (log : List DepartureEvent) (e : DepartureEvent) (room : String) :
    unanswered (log ++ [e]) room =
      match e with
      | .departed r => if r = room then true else unanswered log room
      | .pushed r | .foundOccupied r => if r = room then false else unanswered log room := by
  simp [unanswered, List.foldl_append]

theorem mem_upsert {pending : PendingRows} {row row' : PendingRow} (member : row ∈ (pending.upsert row').rows) :
    row = row' ∨ row ∈ pending.rows := by
  unfold Table.upsert at member
  rw [Table.rows_insertIgnore] at member
  split at member
  · obtain old | new := List.mem_append.mp member
    · exact .inr (List.mem_of_mem_filter old)
    · exact .inl (List.mem_singleton.mp new)
  · exact .inr (List.mem_of_mem_filter member)

/-- A step that leaves the run and the log alone, keeps the entries and takes no alarm away. -/
theorem Watched.frame {c c' : DepartureConfig} (watched : Watched c) (log : c'.log = c.log)
    (pending : c'.state.pending = c.state.pending) (run : c'.state.alarmRun = c.state.alarmRun)
    (alarm : c.state.alarm.isSome = true → c'.state.alarm.isSome = true) : Watched c' := by
  refine ⟨pending ▸ watched.bounded, run ▸ watched.nextBounded, ?_, ?_⟩
  · rw [pending, run]
    intro row member
    exact (watched.alarmed row member).imp_left alarm
  · rw [log, pending, run]
    exact watched.entered

/-- The fallback answers the departure and deletes its entry. -/
theorem Watched.immediatePush {c : DepartureConfig} {w : DepartureWorld} {room : String}
    (bounded : ∀ row ∈ w.pending.rows, row.room ≠ room → row.entry.dueAtMs < 2 ^ 63)
    (nextBounded : ∀ run next, w.alarmRun = some run → run.next = some next → next < 2 ^ 63)
    (alarmed : ∀ row ∈ w.pending.rows, row.room ≠ room → w.alarm.isSome = true ∨
      ∃ run, w.alarmRun = some run ∧ (run.next.isSome = true ∨ row.room ∈ run.due))
    (entered : ∀ other, other ≠ room → unanswered c.log other = true → w.pending.find? other ≠ none ∨
      ∃ run, w.alarmRun = some run ∧ run.checking = some other) :
    Watched ⟨(immediatePush w room).1, c.log ++ (immediatePush w room).2⟩ := by
  have inside {row : PendingRow} (member : row ∈ (w.pending.keep (fun row => row.room ≠ room)).rows) :
      row ∈ w.pending.rows ∧ row.room ≠ room := by
    obtain ⟨there, apart⟩ := List.mem_filter.mp member
    exact ⟨there, by simpa using apart⟩
  refine ⟨fun row member => bounded row (inside member).1 (inside member).2, nextBounded,
    fun row member => alarmed row (inside member).1 (inside member).2, fun other open' => ?_⟩
  have log : c.log ++ (Presence.immediatePush w room).2 = (c.log ++ [.departed room]) ++ [.pushed room] := by
    simp [Presence.immediatePush]
  simp only [log, unanswered_append] at open'
  by_cases same : other = room
  · subst same
    simp at open'
  · have before : unanswered c.log other = true := by simpa [Ne.symm same] using open'
    refine (entered other same before).imp_left (fun stored => ?_)
    show (w.pending.keep (fun row => row.room ≠ room)).find? other ≠ none
    rw [Table.find?_delete, if_neg (Ne.symm same)]
    exact stored

theorem watched_arm {c : DepartureConfig} (watched : Watched c) {room leaver : String} {nowMs : Nat} {put : Write}
    {calls : AlarmCalls} (stored : Stored c (.arm room leaver nowMs put calls)) :
    Watched (departureMachine.advance c (.arm room leaver nowMs put calls)) := by
  show Watched ⟨(armDeparture c.state room leaver nowMs put calls).1,
    c.log ++ (armDeparture c.state room leaver nowMs put calls).2⟩
  let entry := armDepartureDebounce leaver nowMs
  let pending := if put.landed then c.state.pending.upsert ⟨room, entry⟩ else c.state.pending
  have older {row : PendingRow} (member : row ∈ pending.rows) : row = ⟨room, entry⟩ ∨ row ∈ c.state.pending.rows := by
    simp only [pending] at member
    split at member
    · exact mem_upsert member
    · exact .inr member
  have elsewhere {row : PendingRow} (member : row ∈ pending.rows) (apart : row.room ≠ room) :
      row ∈ c.state.pending.rows := by
    obtain rfl | old := older member
    · exact absurd rfl apart
    · exact old
  have found (other : String) (apart : other ≠ room) : pending.find? other = c.state.pending.find? other := by
    simp only [pending]
    split
    · rw [Table.find?_upsert, if_neg (Ne.symm apart)]
    · rfl
  unfold armDeparture
  simp only
  split
  · refine Watched.immediatePush (fun row member apart => watched.bounded row (elsewhere member apart))
      watched.nextBounded (fun row member apart => watched.alarmed row (elsewhere member apart))
      (fun other apart open' => ?_)
    show pending.find? other ≠ none ∨ _
    rw [found other apart]
    exact watched.entered other open'
  · rename_i answered
    have ok : put.ok = true := by simpa using answered
    have sets (sure : (ensureAlarmNoLaterThan c.state.alarm entry.dueAtMs calls).1 = true) := ensureAlarm_confirmed sure
    have keeps (there : c.state.alarm.isSome = true) := ensureAlarm_isSome there entry.dueAtMs calls
    simp only [entry] at sets keeps
    generalize ensureAlarmNoLaterThan c.state.alarm (armDepartureDebounce leaver nowMs).dueAtMs calls = ensured at sets keeps ⊢
    split
    · rename_i sure
      obtain ⟨small, there⟩ := sets sure
      refine ⟨fun row member => ?_, watched.nextBounded, fun _ _ => .inl there, fun other open' => ?_⟩
      · obtain rfl | old := older member
        · exact small
        · exact watched.bounded row old
      · show pending.find? other ≠ none ∨ _
        by_cases same : other = room
        · subst same
          refine .inl ?_
          simp only [pending]
          cases landed : put.landed with
          | true => simp [Table.find?_upsert]
          | false => simpa using stored ok landed
        · rw [found other same]
          refine watched.entered other ?_
          rw [unanswered_append] at open'
          simpa [Ne.symm same] using open'
    · refine Watched.immediatePush (fun row member apart => watched.bounded row (elsewhere member apart))
        watched.nextBounded (fun row member apart => ?_) (fun other apart open' => ?_)
      · exact (watched.alarmed row (elsewhere member apart)).imp_left keeps
      · show pending.find? other ≠ none ∨ _
        rw [found other apart]
        exact watched.entered other open'

theorem watched_ring {c : DepartureConfig} (watched : Watched c) (nowMs : Nat) (listed : Bool) (clock : Nat) :
    Watched (departureMachine.advance c (.ring nowMs listed clock)) := by
  show Watched ⟨ringAlarm c.state nowMs listed clock, c.log ++ []⟩
  rw [List.append_nil]
  unfold ringAlarm
  split
  · rename_i t noRun ringing
    cases listed with
    | false => exact watched.frame rfl rfl rfl (fun _ => rfl)
    | true =>
      obtain ⟨dueIff, waits, next⟩ := mem_splitDuePending c.state.pending.rows nowMs
      refine ⟨watched.bounded, ?_, ?_, ?_⟩
      · rintro run n ⟨rfl⟩ later
        obtain ⟨row, member, same⟩ := next n later
        exact same ▸ watched.bounded row member
      · intro row member
        refine .inr ⟨_, rfl, ?_⟩
        obtain due | waiting := waits row member
        · exact .inr (List.mem_map_of_mem ((dueIff row).mpr ⟨member, due⟩))
        · exact .inl waiting
      · intro room open'
        obtain stored | ⟨run, running, -⟩ := watched.entered room open'
        · exact .inl stored
        · rw [noRun] at running
          cases running
  · exact watched

theorem watched_turn {c : DepartureConfig} (watched : Watched c) : Watched (departureMachine.advance c .turn) := by
  show Watched ⟨(departureStep c.state .turn).1, c.log ++ (departureStep c.state .turn).2⟩
  unfold departureStep
  simp only
  split
  · rename_i room rest next running
    rw [List.append_nil]
    refine ⟨fun row member => watched.bounded row (List.mem_of_mem_filter member), ?_, ?_, ?_⟩
    · rintro run n ⟨rfl⟩ later
      exact watched.nextBounded _ n running later
    · intro row member
      obtain ⟨there, apart⟩ := List.mem_filter.mp member
      obtain alarmed | ⟨run, was, either⟩ := watched.alarmed row there
      · exact .inl alarmed
      · rw [running, Option.some.injEq] at was
        subst was
        refine .inr ⟨_, rfl, either.imp_right (fun due => ?_)⟩
        obtain rfl | later := List.mem_cons.mp due
        · simp at apart
        · exact later
    · intro other open'
      by_cases same : other = room
      · exact .inr ⟨_, rfl, by rw [same]⟩
      · obtain stored | ⟨run, was, checking⟩ := watched.entered other open'
        · refine .inl ?_
          show (c.state.pending.keep (fun row => row.room ≠ room)).find? other ≠ none
          rw [Table.find?_delete, if_neg (Ne.symm same)]
          exact stored
        · rw [running, Option.some.injEq] at was
          subst was
          cases checking
  · rw [List.append_nil]
    exact watched

theorem watched_verdict {c : DepartureConfig} (watched : Watched c) (occupied : Bool) :
    Watched (departureMachine.advance c (.verdict occupied)) := by
  show Watched ⟨(departureStep c.state (.verdict occupied)).1, c.log ++ (departureStep c.state (.verdict occupied)).2⟩
  unfold departureStep
  simp only
  split
  · rename_i rest room next running
    refine ⟨watched.bounded, ?_, ?_, ?_⟩
    · rintro run n ⟨rfl⟩ later
      exact watched.nextBounded _ n running later
    · intro row member
      obtain alarmed | ⟨run, was, either⟩ := watched.alarmed row member
      · exact .inl alarmed
      · rw [running, Option.some.injEq] at was
        subst was
        exact .inr ⟨_, rfl, either⟩
    · intro other open'
      have answered : other ≠ room ∧ unanswered c.log other = true := by
        cases occupied <;> simp only [departurePushDue, Bool.not_false, Bool.not_true, if_true, Bool.false_eq_true,
          if_false, unanswered_append] at open' <;> split at open'
        · cases open'
        · rename_i apart
          exact ⟨Ne.symm apart, open'⟩
        · cases open'
        · rename_i apart
          exact ⟨Ne.symm apart, open'⟩
      obtain stored | ⟨run, was, checking⟩ := watched.entered other answered.2
      · exact .inl stored
      · rw [running, Option.some.injEq] at was
        subst was
        rw [Option.some.injEq] at checking
        exact absurd checking.symm answered.1
  · rw [List.append_nil]
    exact watched

theorem watched_finish {c : DepartureConfig} (watched : Watched c) {calls : AlarmCalls} (now : calls.nowMs < 2 ^ 63) :
    Watched (departureMachine.advance c (.finish calls)) := by
  show Watched ⟨finishRun c.state calls, c.log ++ []⟩
  rw [List.append_nil]
  unfold finishRun
  split
  · rename_i next running
    refine ⟨watched.bounded, (fun _ _ none => nomatch none), fun row member => .inl ?_, fun room open' => ?_⟩
    · cases after : next with
      | none =>
        obtain alarmed | ⟨run, was, either⟩ := watched.alarmed row member
        · exact alarmed
        · rw [running, Option.some.injEq] at was
          subst was
          simp [after] at either
      | some n => exact ensureAlarm_landed (watched.nextBounded _ n running after) now rfl
    · obtain stored | ⟨run, was, checking⟩ := watched.entered room open'
      · exact .inl stored
      · rw [running, Option.some.injEq] at was
        subst was
        cases checking
  · exact watched

theorem watched_net {c : DepartureConfig} (watched : Watched c) (nowMs : Nat) (listed : Bool) (calls : AlarmCalls) :
    Watched (departureMachine.advance c (.net nowMs listed calls)) := by
  show Watched ⟨rearmPendingDeparturesNet c.state nowMs listed calls, c.log ++ []⟩
  rw [List.append_nil]
  unfold rearmPendingDeparturesNet
  split
  · exact watched
  · split
    · exact watched.frame rfl rfl rfl id
    · refine watched.frame rfl rfl rfl (fun there => ?_)
      simp only
      cases earliestDue c.state.pending.rows with
      | none => exact there
      | some due => exact ensureAlarm_isSome there due calls

/-- One step of an arm, an alarm run or the net keeps every entry and departure watched. -/
theorem watched_advance (c : DepartureConfig) (input : DepartureInput) (watched : Watched c) (stored : Stored c input) :
    Watched (departureMachine.advance c input) := by
  cases input with
  | arm room leaver nowMs put calls => exact watched_arm watched stored
  | settle push => exact watched.frame (List.append_nil _) rfl rfl id
  | ring nowMs listed clock => exact watched_ring watched nowMs listed clock
  | turn => exact watched_turn watched
  | verdict occupied => exact watched_verdict watched occupied
  | finish calls => exact watched_finish watched stored
  | net nowMs listed calls => exact watched_net watched nowMs listed calls
  | wake => exact watched.frame (List.append_nil _) rfl rfl id

theorem watched_start : Watched departureStart :=
  ⟨(fun _ none => nomatch none), (fun _ _ none => nomatch none), (fun _ none => nomatch none), (fun _ none => nomatch none)⟩

/-- In every run whose puts are stored where they answer success, no state strands a departure. -/
theorem no_departure_stranded (inputs : List DepartureInput)
    (stored : departureMachine.Guarded Stored departureStart inputs) :
    NoneStranded (departureMachine.run departureStart inputs) :=
  (departureMachine.run_invariant watched_advance watched_start stored).noneStranded

def tookSet : AlarmSet := ⟨⟨true, true⟩, 0, true⟩
def failedSet : AlarmSet := ⟨⟨false, false⟩, 0, true⟩

/-- A departure is armed, a second one falls back on an alarm that cannot be set, and the alarm runs. -/
def storedRun : List DepartureInput :=
  [.arm "room" "owner" 0 ⟨true, true⟩ ⟨0, true, tookSet, tookSet⟩, .ring 5000 true 5000, .turn,
    .arm "other" "owner" 5000 ⟨true, true⟩ ⟨5000, true, failedSet, failedSet⟩, .verdict false, .settle 0,
    .finish ⟨5001, true, tookSet, tookSet⟩]

theorem no_departure_stranded_run :
    (departureMachine.run departureStart storedRun).log =
        [.departed "room", .departed "other", .pushed "other", .pushed "room"] ∧
      NoneStranded (departureMachine.run departureStart storedRun) :=
  ⟨by decide +kernel, no_departure_stranded storedRun (by decide +kernel)⟩

/-- The entry's put answers success and is dropped; the alarm is set, and finds nothing when it rings. -/
def droppedPut : List DepartureInput :=
  [.arm "room" "owner" 0 ⟨true, false⟩ ⟨0, true, tookSet, tookSet⟩, .ring 5000 true 5000,
    .finish ⟨5001, true, tookSet, tookSet⟩]

/-- No handler is running, no entry is stored, and the departure was neither pushed nor found occupied. -/
theorem dropped_put_stranded : ¬NoneStranded (departureMachine.run departureStart droppedPut) := by
  have quiet : (departureMachine.run departureStart droppedPut).state.alarmRun = none ∧
      (departureMachine.run departureStart droppedPut).state.pushing = [] ∧
      unanswered (departureMachine.run departureStart droppedPut).log "room" = true ∧
      (departureMachine.run departureStart droppedPut).state.pending.find? "room" = none := by
    decide +kernel
  intro watched
  obtain ⟨noRun, noPush, open', absent⟩ := quiet
  exact (watched noRun noPush).2 "room" open' absent

end MessageRelay.Presence
